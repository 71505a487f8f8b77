import ScriptLink.Proofs.Collecting
import ScriptLink.Proofs.Session.Failing

/-!
# Imports without a loader

A module may ask for a specifier whose suffix has no loader. The request is refused at once, and the
refusal is handed to the module like a load that has failed already. So the module fails, whoever
else it waits for and whatever is known under the path of the specifier, unless it puts the
dependency off. The wait graph is asked about every dependency, about a refused one too, and if the
path leads back to the importer, the refusal gets lost: a dependency that is put off is only a path.

* **`AsksFor`** — a module is at its text, and a marker or an import of it names the specifier.
* **`Doomed`** — a load that has failed, or that waits for a request that was refused. Nothing leads
  out of this state, and polling such a load answers an error.
* **`unknown_import_fails`** — the law, and what becomes of a refusal that leads back.
-/

namespace ScriptLink

namespace ImportMap

variable {map other : ImportMap} {path : String}

theorem mem_paths_add {name : String} {added : List Binding} :
    path ∈ (map.add name added).paths ↔ path ∈ map.paths ∨ path = name := by
  rw [paths_add]
  split
  · next hknown => exact ⟨Or.inl, fun h => h.elim id fun heq => heq ▸ hknown⟩
  · rw [List.mem_append, List.mem_singleton]

theorem mem_paths_addAll :
    path ∈ (map.addAll other).paths ↔ path ∈ map.paths ∨ path ∈ other.paths := by
  induction other generalizing map with
  | nil => simp [addAll, paths]
  | cons entry rest ih =>
    show path ∈ ((map.add entry.1 entry.2).addAll rest).paths ↔ _
    rw [ih, mem_paths_add, paths_cons, List.mem_cons, or_assoc]

end ImportMap

/-- A module asks for what its markers and its imports name. -/
theorem Linking.mem_requestsOf {markers : List Marker} {imports : ImportMap} {specifier : String} :
    specifier ∈ (Linking.requestsOf markers imports).paths ↔
      (∃ marker ∈ markers, marker.path = specifier) ∨ specifier ∈ imports.paths := by
  have hmarked : ∀ map : ImportMap, specifier ∈ (markers.foldl (fun map marker =>
      map.add marker.path (marker.name.toList.map .whole)) map).paths ↔
      specifier ∈ map.paths ∨ ∃ marker ∈ markers, marker.path = specifier := by
    induction markers with
    | nil => simp
    | cons marker rest ih =>
      intro map
      rw [List.foldl_cons, ih, ImportMap.mem_paths_add, or_assoc, List.exists_mem_cons_iff,
        eq_comm]
  unfold Linking.requestsOf
  dsimp only
  rw [ImportMap.mem_paths_addAll, hmarked]
  simp [ImportMap.paths]

namespace Session

variable {allowed : Action → Prop} {before session after last : Session} {path specifier : String}
  {record next : Record} {config : Config} {host : Host} {closed : String → Bool}

/-- The load of `path` has its text, and a marker or an import in the text names `specifier`. -/
def AsksFor (session : Session) (path specifier : String) : Prop :=
  ∃ record text script, session.find? path = some record ∧ record.task = .fetching ∧
    session.pass? (.fetch path) = some (.ok ()) ∧ session.host.fetch path = .ok text ∧
    transform session.config.exportsName (record.loader.take text).script = .ok script ∧
    ((∃ marker ∈ (record.loader.take text).markers, marker.path = specifier) ∨
      specifier ∈ script.imports.paths)

/-! ## Loads that are bound to fail -/

/-- The load of `path` waits for a request that was refused, or has failed. -/
inductive Doomed (session : Session) (path : String) : Prop where
  | waiting {record : Record} {linking : Linking} {dependency : Dependency} {failure : Failure}
      (hfound : session.find? path = some record) (htask : record.task = .linking linking)
      (hmem : dependency ∈ linking.dependencies)
      (hwaiting : dependency.waiting = .awaited (.refused failure)) : Doomed session path
  | failed {failure : Failure} (hended : session.outcomeOf (.load path) = some (.error failure)) :
      Doomed session path

theorem Doomed.notEndedWell (h : Doomed session path) : NotEndedWell session path := by
  cases h with
  | waiting hfound htask _ _ => exact notEndedWell_of_task hfound (by rw [htask]; rfl)
  | failed hended =>
    intro content hcontent
    exact absurd (hended.symm.trans hcontent) (by simp)

/-- A refusal never turns into a content, so nothing sets the load free. -/
theorem Doomed.step (h : Doomed session path) (hstep : Step allowed session after) :
    Doomed after path := by
  cases h with
  | waiting hfound htask hmem hwaiting =>
    obtain ⟨next, hnext, ⟨later, hlater, hkept⟩ | ⟨failure, hfailed⟩⟩ :=
      hstep.still_waiting hfound htask hmem hwaiting (by simp [outcomeOf])
    · exact .waiting hnext hlater hkept hwaiting
    · exact .failed (outcomeOf_load_eq_some.mpr ⟨next, hnext, hfailed⟩)
  | failed hended => exact .failed (hstep.outcomeOf hended)

theorem Doomed.steps (h : Doomed session path) (hsteps : Steps allowed session after) :
    Doomed after path := by
  induction hsteps with
  | refl => exact h
  | tail _ hlast ih => exact ih.step hlast

/-- A module is run only out of its linking phase, and only if it waits for nothing any more. -/
theorem Step.not_run (hstep : Step allowed session after) (hnot : ¬ RunInLog session path)
    (hblocked : ∀ record linking, session.find? path = some record →
      record.task = .linking linking → linking.isWaiting = true) : ¬ RunInLog after path := by
  rintro ⟨place, wrapper, dependencies, hentry, rfl⟩
  have hearlier : session.log[place]? ≠ some (.execute wrapper dependencies) :=
    fun hold => hnot ⟨place, wrapper, dependencies, hold, rfl⟩
  rcases hstep.log_cases with hsame | ⟨call, hpush⟩
  · exact hearlier (hsame ▸ hentry)
  · rw [hpush, Array.getElem?_push] at hentry
    split at hentry
    · obtain rfl := Option.some.inj hentry
      obtain ⟨record, linking, hfound, htask, hready, -⟩ := hstep.pushed_execute hpush
      exact absurd (hready.symm.trans (hblocked record linking hfound htask)) (by simp)
    · exact hearlier hentry

theorem Doomed.isWaiting {linking : Linking} (h : Doomed session path)
    (hfound : session.find? path = some record) (htask : record.task = .linking linking) :
    linking.isWaiting = true := by
  cases h with
  | waiting hother hlinking hmem hwaiting =>
    obtain rfl := Option.some.inj (hfound.symm.trans hother)
    obtain rfl := Task.linking.inj (htask.symm.trans hlinking)
    exact isWaiting_iff.mpr ⟨_, hmem, _, hwaiting⟩
  | failed hended =>
    obtain ⟨other, hother, hsettled⟩ := outcomeOf_load_eq_some.mp hended
    obtain rfl := Option.some.inj (hfound.symm.trans hother)
    exact absurd (htask.symm.trans hsettled) (by simp)

/-- A load that is bound to fail is not handed to the host. -/
theorem Doomed.not_run (h : Doomed session path) (hnot : ¬ RunInLog session path)
    (hsteps : Steps allowed session after) : ¬ RunInLog after path := by
  induction hsteps with
  | refl => exact hnot
  | tail hearlier hlast ih => exact hlast.not_run ih fun _ _ => (h.steps hearlier).isWaiting

/-- **Gathering dependencies of which one was refused fails**, with that one or with an earlier
one. -/
theorem gather_of_refused {poll : String → Session → Session × Option Outcome}
    {dependencies : List Dependency} {dependency : Dependency} {failure : Failure}
    (hmem : dependency ∈ dependencies) (hwaiting : dependency.waiting = .awaited (.refused failure))
    (session : Session) : ∃ failed, (gather poll session dependencies).2 = .error failed := by
  induction dependencies generalizing session with
  | nil => exact absurd hmem List.not_mem_nil
  | cons first rest ih =>
    rcases List.mem_cons.mp hmem with rfl | hrest
    · exact ⟨failure, by simp [gather, hwaiting, pollRequest]⟩
    · unfold gather
      split
      · split
        · exact ⟨_, rfl⟩
        · next mid content _ =>
          obtain ⟨failed, hfailed⟩ := ih hrest mid
          exact ⟨failed, by dsimp only; rw [hfailed]; rfl⟩
        · next mid _ =>
          obtain ⟨failed, hfailed⟩ := ih hrest mid
          exact ⟨failed, by dsimp only; rw [hfailed]; rfl⟩
      · obtain ⟨failed, hfailed⟩ := ih hrest session
        exact ⟨failed, by dsimp only; rw [hfailed]; rfl⟩

/-- Polling is never bounded by less than two. -/
theorem bound_eq_add_two (session : Session) : ∃ count, session.bound = count + 2 := by
  have hle : 8 ^ 3 ≤ session.bound := Nat.pow_le_pow_left (Nat.le_add_left 8 session.demand) 3
  exact ⟨session.bound - 2, by omega⟩

/-- **Polling a load that is bound to fail answers an error**, whatever gates are closed. -/
theorem Doomed.poll (h : Doomed session path) :
    ∃ failure, (session.poll (.load path)).2 = some (.error failure) := by
  cases h with
  | failed hended => exact ⟨_, by rw [poll_settled hended]⟩
  | @waiting record linking dependency failure hfound htask hmem hwaiting =>
    obtain ⟨count, hcount⟩ := bound_eq_add_two session
    have hpath := path_of_find? hfound
    subst hpath
    -- the first step gives the load up, and the next one reads its outcome
    obtain ⟨failed, hfailed⟩ : ∃ failed, (gather (pollFor (count + 1) [record.path]) session
        linking.dependencies).2 = .error failed := gather_of_refused hmem hwaiting session
    obtain ⟨hmoves, -⟩ := gather_sound (pollFor_sound (count + 1) [record.path])
      linking.dependencies session
    have hkept := hmoves.find?_of_mem List.mem_cons_self hfound
    cases hgather : gather (pollFor (count + 1) [record.path]) session linking.dependencies with
    | mk mid result =>
      rw [hgather] at hfailed hkept
      obtain rfl : result = .error failed := hfailed
      have hadvance : session.advance (pollFor (count + 1) [record.path]) record =
          (({ mid with waits := mid.waits.release record.path }).reject record.path failed,
            true) := by
        unfold advance
        simp only [htask, hgather]
      refine ⟨failed, ?_⟩
      show (pollFor session.bound [] record.path session).2 = _
      rw [hcount, pollFor]
      simp only [hfound, htask, List.contains_nil, Bool.false_eq_true, ↓reduceIte, hadvance]
      rw [pollFor]
      simp only [find?_abandoned hkept]

/-! ## What becomes of a refusal -/

/-- What a module makes of a text that asks for something: it has an answer to every specifier, by
the wait graph as it was before. -/
theorem AsksFor.asked (h : before.AsksFor path specifier) (hmove : Move path before after) :
    ∃ next linking, after.find? path = some next ∧ next.task = .linking linking ∧
      specifier ∈ linking.requests.paths ∧
      List.Forall₂ (Answer path before after) linking.requests.paths linking.dependencies := by
  obtain ⟨record, text, script, hfound, htask, hpass, hfetch, hscript, hnamed⟩ := h
  obtain rfl := path_of_find? hfound
  obtain ⟨_, next, -, -, hnext, -⟩ := hmove.reworked.own
  cases hmove.moved hfound hnext with
  | link _ _ hother hparsed hrequests hafter =>
    obtain rfl := Except.ok.inj (hfetch.symm.trans hother)
    obtain rfl := Except.ok.inj (hscript.symm.trans hparsed)
    refine ⟨_, _, hnext, rfl, ?_, ?_⟩
    · rw [hrequests]
      exact Linking.mem_requestsOf.mpr hnamed
    · refine (dependAll_answers before record.path _).imp fun _ _ hanswer =>
        hanswer.mono fun other hsome => ?_
      -- setting the task afterwards takes no record away
      obtain ⟨known, hknown⟩ := Option.isSome_iff_exists.mp hsome
      rw [hafter]
      unfold linked
      rw [find?_setTask, hknown]
      split <;> rfl
  | raise hraises =>
    -- the text is there, and it is not refused
    obtain ⟨_, herror, -⟩ := hraises.of_fetching htask hpass hfetch
    exact absurd (hscript.symm.trans herror) (by simp)
  | call hcalls => exact absurd htask hcalls.not_fetching
  | resolve hyields _ => exact absurd htask hyields.not_fetching
  | execute hother _ _ => exact absurd (htask.symm.trans hother) (by simp)
  | abandon hother _ _ _ => exact absurd (htask.symm.trans hother) (by simp)
  | inherit hother _ => exact absurd (htask.symm.trans hother) (by simp)
  | fill hother _ _ _ => exact absurd (htask.symm.trans hother) (by simp)
  | follow hother _ _ _ => exact absurd (htask.symm.trans hother) (by simp)
  | note hother _ => exact absurd (htask.symm.trans hother) (by simp)

/-- A module that asks for a specifier without a loader is bound to fail, unless it is led back. -/
theorem AsksFor.doomed (h : before.AsksFor path specifier)
    (hunknown : before.loaders.find? specifier = none)
    (hfree : before.waits.leads (Path.resolve path specifier) path = false)
    (hmove : Move path before after) : Doomed after path := by
  obtain ⟨next, linking, hnext, htask, hmem, hanswers⟩ := h.asked hmove
  obtain ⟨dependency, hdependency, hanswer⟩ := forall₂_mem_left hanswers hmem
  cases hanswer with
  | refused _ _ => exact .waiting hnext htask hdependency rfl
  | deferred hleads => exact absurd (hfree.symm.trans hleads) (by simp)
  | recorded _ hknown _ => exact absurd hunknown (Option.ne_none_iff_isSome.mpr hknown)

/-- A module that gets its text has not been run, and is not run by that. -/
theorem AsksFor.not_run (h : before.AsksFor path specifier)
    (hsteps : Steps allowed (start config host closed) before) (hstep : Step allowed before after) :
    ¬ RunInLog after path := by
  obtain ⟨record, _, _, hfound, htask, -⟩ := h
  refine hstep.not_run ?_ fun other linking hother hlinking => ?_
  · rintro ⟨place, wrapper, dependencies, hentry, rfl⟩
    have hmem : wrapper.path ∈ before.log.toList.filterMap HostCall.executed? :=
      List.mem_filterMap.mpr ⟨_, Array.mem_toList_iff.mpr (Array.mem_of_getElem? hentry), rfl⟩
    have hstage := (logMatches_of_start hsteps).stage_of_executed _ hmem
    rw [stageOf_of_find? hfound, htask] at hstage
    exact absurd hstage (by simp [Task.stage])
  · obtain rfl := Option.some.inj (hfound.symm.trans hother)
    exact absurd (htask.symm.trans hlinking) (by simp)

/-! ## Scripts that have just got their text -/

/-- A request of a path that has no record makes one. -/
theorem find?_act_request {referrer : Option String} {loader : Loader}
    (hloader : session.loaders.find? specifier = some loader)
    (hpath : Path.resolve (referrer.getD session.config.defaultReferrer) specifier = path)
    (hnew : session.find? path = none) :
    (session.act (.request specifier referrer)).find? path =
      some ⟨path, loader, .empty, .start⟩ := by
  have hrecords : (session.act (.request specifier referrer)).records =
      session.records ++ [⟨path, loader, .empty, .start⟩] := by
    show (session.request specifier _).1.records = _
    unfold request
    simp only [hloader, hpath, hnew, Option.isSome_none, Bool.false_eq_true, ↓reduceIte]
  unfold find? at hnew ⊢
  rw [hrecords, List.find?_append, hnew]
  simp

/-- The session after the load of a script has begun. -/
def beginFetch (session : Session) (path : String) : Session :=
  (session.call (.fetch path)).setTask path .fetching

/-- A script whose load begins at an open gate has its text. -/
theorem beginFetch_asksFor {text : String} {script : Script}
    (hfound : session.find? path = some ⟨path, .script, .empty, .start⟩)
    (hpass : session.pass? (.fetch path) = some (.ok ()))
    (hfetch : session.host.fetch path = .ok text)
    (hscript : transform session.config.exportsName text = .ok script)
    (hnamed : specifier ∈ script.imports.paths) :
    Step allowed session (session.beginFetch path) ∧
      (session.beginFetch path).AsksFor path specifier :=
  ⟨.move (Or.inl (.call hfound (.fetch rfl rfl))),
    _, text, script, find?_called hfound, rfl, hpass, hfetch, hscript, Or.inr hnamed⟩

/-! ## The law -/

/-- **An import without a loader is an error, unless it leads back.** Take a module that has its
text, in any state of any session, and a specifier in a marker or an import of the text whose suffix
has no loader then. If the resolved path does not lead to the module in the wait graph, the load of
the module never ends well from then on: it is not run, and polling it answers an error, whatever
gates are closed and whatever there is under that path. If the path does lead to the module, it is
put off like any other, and no dependency of the module stands for the refusal. -/
theorem unknown_import_fails (config : Config) (host : Host) (closed : String → Bool)
    (allowed : Action → Prop) (before after last : Session) (path specifier : String)
    (hbefore : Steps allowed (start config host closed) before)
    (hasks : before.AsksFor path specifier) (hunknown : before.loaders.find? specifier = none)
    (hmove : Move path before after) (hlast : Steps allowed after last) :
    (before.waits.leads (Path.resolve path specifier) path = false →
      (∀ content, last.outcomeOf (.load path) ≠ some (.ok content)) ∧
      (∃ failure, (last.poll (.load path)).2 = some (.error failure)) ∧
      ¬ RunInLog last path) ∧
    (before.waits.leads (Path.resolve path specifier) path = true →
      ∃ next linking, after.find? path = some next ∧ next.task = .linking linking ∧
        specifier ∈ linking.requests.paths ∧
        ∀ dependency ∈ linking.dependencies, dependency.path = Path.resolve path specifier →
          dependency.waiting = .deferred) := by
  constructor
  · intro hfree
    have hdoomed := hasks.doomed hunknown hfree hmove
    exact ⟨(hdoomed.steps hlast).notEndedWell, (hdoomed.steps hlast).poll,
      hdoomed.not_run (hasks.not_run hbefore (.move hmove)) hlast⟩
  · intro hleads
    obtain ⟨next, linking, hnext, htask, hmem, hanswers⟩ := hasks.asked hmove
    refine ⟨next, linking, hnext, htask, hmem, fun dependency hdependency hpath => ?_⟩
    -- whatever else resolves to this path leads back as well
    rw [← hpath] at hleads
    obtain ⟨other, -, hanswer⟩ := forall₂_mem_right hanswers hdependency
    cases hanswer with
    | deferred _ => rfl
    | refused hfree _ => exact absurd (hleads.symm.trans hfree) (by simp)
    | recorded hfree _ _ => exact absurd (hleads.symm.trans hfree) (by simp)

/-- A script imports a text file, for which there is no loader: its load fails. -/
theorem text_file_is_refused :
    let host : Host := ⟨[("a.js", "import './b.txt'")], [], Host.exportOrigin, []⟩
    let base := start Config.default host fun _ => false
    let before := (base.act (.request "a.js" none)).beginFetch "a.js"
    let after := before.linked "a.js" ⟨"", [("./b.txt", [])], []⟩ [("./b.txt", [])] none
    before.AsksFor "a.js" "./b.txt" ∧ before.loaders.find? "./b.txt" = none ∧
      Move "a.js" before after ∧
      before.waits.leads (Path.resolve "a.js" "./b.txt") "a.js" = false ∧
      (∀ content, after.outcomeOf (.load "a.js") ≠ some (.ok content)) ∧
      (∃ failure, (after.poll (.load "a.js")).2 = some (.error failure)) ∧
      ¬ RunInLog after "a.js" := by
  intro host base before after
  have hrequested : (base.act (.request "a.js" none)).find? "a.js" =
      some ⟨"a.js", .script, .empty, .start⟩ :=
    find?_act_request rfl (by decide +kernel) rfl
  have hscript : transform Config.default.exportsName "import './b.txt'" =
      .ok ⟨"", [("./b.txt", [])], []⟩ := eq_ok_of_toOption (by decide +kernel)
  obtain ⟨hstep, hasks⟩ : Step (fun _ => True) (base.act (.request "a.js" none)) before ∧
      before.AsksFor "a.js" "./b.txt" :=
    beginFetch_asksFor hrequested rfl rfl hscript (List.mem_singleton_self _)
  have hbefore : Steps (fun _ => True) base before :=
    .tail (.single (.act trivial)) hstep
  have hmove : Move "a.js" before after :=
    Or.inl (Turn.link (find?_called hrequested) rfl rfl rfl hscript)
  have hunknown : before.loaders.find? "./b.txt" = none := by decide +kernel
  have hfree : before.waits.leads (Path.resolve "a.js" "./b.txt") "a.js" = false := by
    decide +kernel
  have hlaw := unknown_import_fails Config.default host (fun _ => false) (fun _ => True) before
    after after "a.js" "./b.txt" hbefore hasks hunknown hmove .refl
  exact ⟨hasks, hunknown, hmove, hfree, hlaw.1 hfree⟩

/-- A script imports itself behind a dot, with an empty suffix, and its load ends well. -/
theorem refusal_is_lost_on_a_cycle :
    let host : Host := ⟨[("main.js", "import './main.js/.'")], [], Host.exportOrigin, []⟩
    let base := start Config.default host fun _ => false
    let before := (base.act (.request "main.js" none)).beginFetch "main.js"
    let after := before.linked "main.js" ⟨"", [("./main.js/.", [])], []⟩ [("./main.js/.", [])] none
    let last := (after.poll (.load "main.js")).1
    Steps (fun _ => True) base before ∧ before.AsksFor "main.js" "./main.js/." ∧
      before.loaders.find? "./main.js/." = none ∧ Move "main.js" before after ∧
      Steps (fun _ => True) after last ∧
      ∃ content, last.outcomeOf (.load "main.js") = some (.ok content) := by
  intro host base before after last
  have hrequested : (base.act (.request "main.js" none)).find? "main.js" =
      some ⟨"main.js", .script, .empty, .start⟩ :=
    find?_act_request rfl (by decide +kernel) rfl
  have hscript : transform Config.default.exportsName "import './main.js/.'" =
      .ok ⟨"", [("./main.js/.", [])], []⟩ := eq_ok_of_toOption (by decide +kernel)
  obtain ⟨hstep, hasks⟩ : Step (fun _ => True) (base.act (.request "main.js" none)) before ∧
      before.AsksFor "main.js" "./main.js/." :=
    beginFetch_asksFor hrequested rfl rfl hscript (List.mem_singleton_self _)
  have hpolled := poll_sound after (.load "main.js")
  refine ⟨.tail (.single (.act trivial)) hstep, hasks, by decide +kernel,
    Or.inl (Turn.link (find?_called hrequested) rfl rfl rfl hscript), hpolled.1.steps, ?_⟩
  have hended : (after.poll (.load "main.js")).2.any Except.toBool = true := by decide +kernel
  obtain ⟨outcome, hpoll, hok⟩ := (Option.any_eq_true _ _).mp hended
  cases outcome with
  | ok content => exact ⟨content, hpolled.2 _ hpoll⟩
  | error failure => exact absurd hok (by simp [Except.toBool])

end Session

end ScriptLink
