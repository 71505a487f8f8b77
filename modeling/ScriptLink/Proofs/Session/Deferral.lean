import ScriptLink.Proofs.Session.Loading
import ScriptLink.Proofs.Session.Stuck

/-!
# Dependencies that are put off

A module does not wait for a dependency that leads back to it. Such a dependency is read from its
slot when the module is run, and the question is what may have become of it by then. The answer is
nothing: it waits, directly or by way of others, for the module itself, so it cannot end well
before the module does, and its slot is empty.

* **`SlotsMatch`** — a slot holds a content exactly if the load has ended well, with that content.
  This needs that nobody else writes slots.
* **`Behind`** — a load that cannot end well before the load of a given module: it is that module,
  it waits for one that is behind it, or it has failed or is going to.
* **`behind_of_leads`** — what leads to a module in the wait graph is behind it.
* **`Behind.step`** — a load stays behind a module for as long as the module has not ended well.
-/

namespace ScriptLink

/-- Whether an action writes no slot and registers no loader that does. -/
def Action.leavesSlots : Action → Bool
  | .sealSlot _ _ => false
  | .register _ loader => !loader.fills
  | _ => true

/-- The content that a load has ended with. -/
def Task.content? : Task → Option Content
  | .settled (.ok content) => some content
  | _ => none

theorem Task.content?_eq_some {task : Task} {content : Content} :
    task.content? = some content ↔ task = .settled (.ok content) := by
  cases task with
  | settled outcome => cases outcome <;> simp [Task.content?]
  | _ => simp [Task.content?]

theorem Task.content?_of_open {task : Task} (h : task.outcome? = none) :
    task.content? = none := by
  cases task with
  | settled outcome => exact absurd h (by simp [Task.outcome?])
  | _ => rfl

namespace Session

variable {allowed : Action → Prop} {session after : Session} {path importer : String}
  {record : Record}

/-! ## Slots -/

/-- Every slot holds the content of the load, if that has ended well, and nothing otherwise. -/
def SlotsMatch (session : Session) : Prop :=
  ∀ path record, session.find? path = some record → record.slot.get? = record.task.content?

theorem Calls.content? {call : HostCall} {task : Task} (h : Calls session record call task) :
    record.task.content? = none ∧ task.content? = none :=
  ⟨Task.content?_of_open h.outcome?_eq_none, by cases h <;> rfl⟩

theorem Moved.slot {next : Record} (h : Moved path session after record next)
    (hfits : record.task.Fits record.loader) (hfills : record.loader.fills = false)
    (hslot : record.slot.get? = record.task.content?) : next.slot.get? = next.task.content? := by
  -- a load that has not ended has an empty slot, and unless it ends well it leaves it empty
  have hempty : record.task.content? = none → record.slot.get? = none := fun hnone =>
    hslot.trans hnone
  cases h with
  | call hcalls => exact (hempty hcalls.content?.1).trans hcalls.content?.2.symm
  | link htask _ _ _ _ _ => exact hempty (by rw [htask]; rfl)
  | execute htask _ _ => exact hempty (by rw [htask]; rfl)
  | abandon htask _ _ _ => exact hempty (by rw [htask]; rfl)
  | resolve _ _ => rfl
  | raise hraises => exact hempty (Task.content?_of_open hraises.outcome?_eq_none)
  | inherit htask _ => exact hempty (by rw [htask]; rfl)
  | follow htask _ _ _ => exact hempty (by rw [htask]; rfl)
  | note htask _ => exact hempty (by rw [htask]; rfl)
  | fill htask _ hvalue _ =>
    rw [htask] at hfits
    rw [hfits, Loader.fills, hvalue] at hfills
    exact absurd hfills (by simp)

/-- No loader of the session writes a slot by itself. -/
abbrev Unfilled : Session → Prop := LoadersAre fun loader => loader.fills = false

theorem SlotsMatch.step (h : SlotsMatch session) (hfit : TasksFit session)
    (hunfilled : Unfilled session)
    (hallowed : ∀ action, allowed action → action.leavesSlots = true)
    (hstep : Step allowed session after) : SlotsMatch after := by
  refine @Step.forall_records _ _ _ (fun _ _ record => record.slot.get? = record.task.content?)
    hstep (fun _ _ _ hold => hold) ?_ ?_ ?_ h
  · rintro path record ⟨hslot, htask, -⟩
    rw [hslot, htask]
    rfl
  · exact fun path record content _ haction _ =>
      absurd (hallowed _ haction) (by simp [Action.leavesSlots])
  · exact fun path record next _ hfound hmoved hold =>
      hmoved.slot (hfit path record hfound) (hunfilled.recorded path record hfound) hold

/-- The content of a module is there exactly if its load has ended well with it. -/
theorem SlotsMatch.exports?_eq_some (h : SlotsMatch session) {content : Content} :
    session.exports? path = some content ↔
      session.outcomeOf (.load path) = some (.ok content) := by
  rw [outcomeOf_load_eq_some]
  unfold exports?
  rw [Option.bind_eq_some_iff]
  refine exists_congr fun record => and_congr_right fun hfound => ?_
  rw [h path record hfound, Task.content?_eq_some]

/-! ## Behind a module -/

/-- The load of `path` has not ended well, and will not before that of `importer` has. -/
inductive Behind (session : Session) (importer : String) : String → Prop where
  | self : Behind session importer importer
  | waiting {path target : String} {record : Record} {linking : Linking}
      {dependency : Dependency} (hfound : session.find? path = some record)
      (htask : record.task = .linking linking) (hmem : dependency ∈ linking.dependencies)
      (hwaiting : dependency.waiting = .awaited (.load target))
      (hbehind : Behind session importer target) : Behind session importer path
  | failing {path : String} {record : Record} {linking : Linking} {dependency : Dependency}
      {failure : Failure} (hfound : session.find? path = some record)
      (htask : record.task = .linking linking) (hmem : dependency ∈ linking.dependencies)
      (hwaiting : dependency.waiting = .awaited (.refused failure)) :
      Behind session importer path
  | failed {path : String} {record : Record} {failure : Failure}
      (hfound : session.find? path = some record)
      (htask : record.task = .settled (.error failure)) : Behind session importer path

/-- The load of `path` has not ended well. -/
def NotEndedWell (session : Session) (path : String) : Prop :=
  ∀ content, session.outcomeOf (.load path) ≠ some (.ok content)

theorem notEndedWell_of_task (hfound : session.find? path = some record)
    (htask : record.task.content? = none) : NotEndedWell session path := by
  intro content houtcome
  obtain ⟨other, hother, hsettled⟩ := outcomeOf_load_eq_some.mp houtcome
  rw [hfound, Option.some.injEq] at hother
  rw [hother, Task.content?_eq_some.mpr hsettled] at htask
  exact absurd htask (by simp)

theorem Behind.notEndedWell (h : Behind session importer path)
    (himporter : NotEndedWell session importer) : NotEndedWell session path := by
  cases h with
  | self => exact himporter
  | waiting hfound htask _ _ _ => exact notEndedWell_of_task hfound (by rw [htask]; rfl)
  | failing hfound htask _ _ => exact notEndedWell_of_task hfound (by rw [htask]; rfl)
  | failed hfound htask => exact notEndedWell_of_task hfound (by rw [htask]; rfl)

/-- A dependency that has not ended well is not noted. -/
theorem Gathered.mem_of_open {dependencies noted : List Dependency}
    (h : Gathered session dependencies noted) {dependency : Dependency}
    (hmem : dependency ∈ dependencies) {request : Request}
    (hwaiting : dependency.waiting = .awaited request)
    (hopen : ∀ content, session.outcomeOf request ≠ some (.ok content)) : dependency ∈ noted := by
  induction h with
  | nil => exact absurd hmem List.not_mem_nil
  | cons hnoted _ ih =>
    rcases List.mem_cons.mp hmem with rfl | hrest
    · rcases hnoted with rfl | ⟨other, content, hother, houtcome, -⟩
      · exact List.mem_cons_self
      · obtain rfl := Waiting.awaited.inj (hother.symm.trans hwaiting)
        exact absurd houtcome (hopen content)
    · exact List.mem_cons_of_mem _ (ih hrest)

/-- What the own move of a module makes of a dependency that cannot arrive: the module still waits
for it, or it has failed. -/
theorem Moved.still_waiting {next : Record} {linking : Linking}
    (h : Moved path session after record next) (htask : record.task = .linking linking)
    {dependency : Dependency} (hmem : dependency ∈ linking.dependencies) {request : Request}
    (hwaiting : dependency.waiting = .awaited request)
    (hopen : ∀ content, session.outcomeOf request ≠ some (.ok content)) :
    (∃ later, next.task = .linking later ∧ dependency ∈ later.dependencies) ∨
      ∃ failure, next.task = .settled (.error failure) := by
  rcases h.of_linking htask with hready | ⟨_, -, _, failure, -, -, hfailed⟩ |
    ⟨noted, hgathered, rfl⟩
  · have hwaits := isWaiting_iff.mpr ⟨dependency, hmem, request, hwaiting⟩
    exact absurd (hready.symm.trans hwaits) (by simp)
  · exact Or.inr ⟨failure, hfailed⟩
  · exact Or.inl ⟨_, rfl, hgathered.mem_of_open hmem hwaiting hopen⟩

/-- What a step makes of a module that waits for something that cannot arrive. -/
theorem Step.still_waiting {linking : Linking} (h : Step allowed session after)
    (hfound : session.find? path = some record) (htask : record.task = .linking linking)
    {dependency : Dependency} (hmem : dependency ∈ linking.dependencies) {request : Request}
    (hwaiting : dependency.waiting = .awaited request)
    (hopen : ∀ content, session.outcomeOf request ≠ some (.ok content)) :
    ∃ next, after.find? path = some next ∧
      ((∃ later, next.task = .linking later ∧ dependency ∈ later.dependencies) ∨
        ∃ failure, next.task = .settled (.error failure)) := by
  cases h with
  | @move actor _ hmove =>
    by_cases hactor : path = actor
    · have hown : Move path session after := hactor ▸ hmove
      obtain ⟨_, next, -, -, hnext, -⟩ := hown.reworked.own
      exact ⟨next, hnext, (hown.moved hfound hnext).still_waiting htask hmem hwaiting hopen⟩
    · exact ⟨record, hmove.reworked.others path record hactor hfound,
        Or.inl ⟨linking, htask, hmem⟩⟩
  | settle _ _ => exact ⟨record, hfound, Or.inl ⟨linking, htask, hmem⟩⟩
  | @act action _ =>
    rcases act_found action hfound with hsame | ⟨content, -, -, hsealed⟩
    · exact ⟨record, hsame, Or.inl ⟨linking, htask, hmem⟩⟩
    · exact ⟨_, hsealed, Or.inl ⟨linking, htask, hmem⟩⟩

/-- **A load stays behind a module** through every step, as long as the module has not ended
well. -/
theorem Behind.step (h : Behind session importer path)
    (himporter : NotEndedWell session importer) (hstep : Step allowed session after) :
    Behind after importer path := by
  -- along the way to the module; nothing on it can end well before the module has
  induction h with
  | self => exact .self
  | waiting hfound htask hmem hwaiting hbehind ih =>
    obtain ⟨next, hnext, ⟨later, hlater, hkept⟩ | ⟨failure, hfailed⟩⟩ :=
      hstep.still_waiting hfound htask hmem hwaiting (hbehind.notEndedWell himporter)
    · exact .waiting hnext hlater hkept hwaiting ih
    · exact .failed hnext hfailed
  | failing hfound htask hmem hwaiting =>
    obtain ⟨next, hnext, ⟨later, hlater, hkept⟩ | ⟨failure, hfailed⟩⟩ :=
      hstep.still_waiting hfound htask hmem hwaiting fun content hcontent =>
        absurd hcontent (by simp [outcomeOf])
    · exact .failing hnext hlater hkept hwaiting
    · exact .failed hnext hfailed
  | failed hfound htask =>
    have houtcome := hstep.outcomeOf (outcomeOf_load_eq_some.mpr ⟨_, hfound, htask⟩)
    obtain ⟨next, hnext, hfailed⟩ := outcomeOf_load_eq_some.mp houtcome
    exact .failed hnext hfailed

/-- **What leads to a module is behind it**, unless the module has ended: an edge that is left from
a dependency that has arrived leads nowhere. -/
theorem behind_of_leads (hmatch : WaitsMatch session) (hlinks : LinksMatch session)
    (himporter : session.outcomeOf (.load importer) = none)
    (h : session.waits.Leads path importer) : Behind session importer path := by
  -- the goal of the path is named apart, since the induction is over paths to any goal
  generalize hgoal : importer = goal at h
  induction h with
  | refl node =>
    subst hgoal
    exact .self
  | @step first second last hedge hrest ih =>
    subst hgoal
    obtain ⟨record, linking, hfound, htask, dependency, hmem, hnotdeferred, hpath⟩ :=
      linking_of_waitedFor ((hmatch.edges first second).mp hedge)
    obtain ⟨specifier, -, hstanding⟩ :=
      forall₂_mem_right (hlinks first record hfound linking htask) hmem
    cases hstanding with
    | refused => exact .failing hfound htask hmem rfl
    | recorded _ =>
      obtain rfl : Path.resolve first specifier = second := hpath
      exact .waiting hfound htask hmem rfl (ih rfl)
    | deferred => exact absurd rfl hnotdeferred
    | arrived houtcome =>
      -- the target has ended, so no edge leaves it, and it is not the module
      exfalso
      obtain rfl : Path.resolve first specifier = second := hpath
      obtain ⟨target, htarget, hsettled⟩ := outcomeOf_load_eq_some.mp houtcome
      rcases hrest.eq_or_edge with rfl | ⟨next, hnext⟩
      · rw [himporter] at houtcome
        exact absurd houtcome (by simp)
      · have hleft := (hmatch.edges _ next).mp hnext
        rw [waitedFor_of_find? htarget, hsettled] at hleft
        exact absurd hleft List.not_mem_nil

end Session

end ScriptLink
