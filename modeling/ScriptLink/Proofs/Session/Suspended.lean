import ScriptLink.Proofs.Session.History

/-!
# Who is suspended

Between the commands a module has edges in the wait graph exactly while its load is suspended
among its dependencies. That an edge belongs to a module in its linking phase is known from
`WaitsMatch`, at every step. What is missing is that such a module really waits: the last arrival
is noted and the edges are taken away in one go, so no poll ever ends between the two.

This cannot be seen from single moves, since a module that notes its last arrival is for a moment
neither waiting nor run. It is a matter of whole polls.

* **`Keeps`** — a property of sessions that a poll hands on. `pollFor_keeps` and `run_keeps`
  reduce it to one step of a load.
* **`Task.IsParked`** — where a poll can leave a load: not in the linking phase, or waiting there,
  or with nothing agreed to wait for.
* **`wait_graph_invariant`** — the law for every sequence of commands, with any loaders.
-/

namespace ScriptLink

/-- A load that is in its linking phase waits for a dependency, unless it agreed to wait for
none. -/
def Task.IsParked : Task → Prop
  | .linking module => module.isWaiting = true ∨
      module.dependencies.filterMap Dependency.waitedFor? = []
  | _ => True

theorem Task.isParked_of_not_linking {task : Task} (h : ∀ linking, task ≠ .linking linking) :
    task.IsParked := by
  cases task with
  | linking linking => exact absurd rfl (h linking)
  | _ => trivial

namespace Session

variable {session mid after : Session} {path : String} {record next : Record}
  {busy : List String} {poll : String → Session → Session × Option Outcome}

/-! ## What polls keep -/

/-- Whatever is polled, `holds` holds afterwards if it did before. -/
def Keeps (holds : Session → Prop) (poll : String → Session → Session × Option Outcome) : Prop :=
  ∀ path session, holds session → holds (poll path session).1

section Keeps

variable {holds : Session → Prop}

theorem pollRequest_keeps (hpoll : Keeps holds poll) (request : Request) (h : holds session) :
    holds (pollRequest poll session request).1 := by
  cases request with
  | refused failure => exact h
  | load path => exact hpoll path session h

theorem gather_keeps (hpoll : Keeps holds poll) (dependencies : List Dependency)
    (h : holds session) : holds (gather poll session dependencies).1 := by
  induction dependencies generalizing session with
  | nil => exact h
  | cons dependency rest ih =>
    unfold gather
    split
    · next request _ =>
      have hrequest := pollRequest_keeps hpoll request h
      split
      · next mid failure heq =>
        rw [heq] at hrequest
        exact hrequest
      · next mid content heq =>
        rw [heq] at hrequest
        exact ih hrequest
      · next mid heq =>
        rw [heq] at hrequest
        exact ih hrequest
    · exact ih h

/-- **Polls keep what one step of a load keeps.** -/
theorem pollFor_keeps
    (hadvance : ∀ busy poll session record, Sound (record.path :: busy) poll → Keeps holds poll →
      session.find? record.path = some record → holds session →
      holds (session.advance poll record).1) (count : Nat) (busy : List String) :
    Keeps holds (pollFor count busy) := by
  induction count generalizing busy with
  | zero => exact fun _ _ h => h
  | succ count ih =>
    intro path session h
    unfold pollFor
    split
    · exact h
    · next record hfound =>
      have hpath := path_of_find? hfound
      subst hpath
      split
      · exact h
      · split
        · exact h
        · have hstep := hadvance busy _ session record
            (pollFor_sound count (record.path :: busy)) (ih _) hfound h
          split
          · next after heq =>
            rw [heq] at hstep
            exact ih busy record.path after hstep
          · next after heq =>
            rw [heq] at hstep
            exact hstep

variable (hpoll : ∀ count busy, Keeps holds (pollFor count busy))
  (hsettle : ∀ session handle outcome, holds session → holds (session.settle handle outcome))

include hpoll hsettle

theorem pollHandle_keeps (handle : Nat) (h : holds session) :
    holds (session.pollHandle handle).1 := by
  unfold pollHandle
  split
  · next request _ =>
    have hafter : holds (session.poll request).1 := pollRequest_keeps (hpoll _ _) request h
    split
    · next after outcome heq =>
      rw [heq] at hafter
      exact hsettle _ _ _ hafter
    · next after heq =>
      rw [heq] at hafter
      exact hafter
  · exact h

theorem pass_keeps (handles : List Nat) (h : holds session) : holds (session.pass handles).1 := by
  induction handles generalizing session with
  | nil => exact h
  | cons handle rest ih => exact ih (pollHandle_keeps hpoll hsettle handle h)

theorem passes_keeps (count : Nat) (h : holds session) : holds (passes count session).1 := by
  induction count generalizing session with
  | zero => exact h
  | succ count ih =>
    have hpass := pass_keeps hpoll hsettle (List.range session.handles.length) h
    unfold passes
    dsimp only
    split
    · exact hpass
    · exact ih hpass

theorem run_keeps (h : holds session) : holds session.run.1 :=
  passes_keeps hpoll hsettle session.bound h

end Keeps

/-! ## Where polls leave a load -/

/-- No load has been left between its last arrival and its run. -/
def AllParked (session : Session) : Prop :=
  ∀ path record, session.find? path = some record → record.task.IsParked

/-- What has been asked for just now is waited for or put off. -/
theorem isParked_of_answers {before last : Session} {importer : String} {specifiers : List String}
    {linking : Linking}
    (h : List.Forall₂ (Answer importer before last) specifiers linking.dependencies) :
    (Task.linking linking).IsParked := by
  by_cases hdeferred : ∀ dependency ∈ linking.dependencies, dependency.waiting = .deferred
  · refine Or.inr (List.filterMap_eq_nil_iff.mpr fun dependency hmem => ?_)
    unfold Dependency.waitedFor?
    rw [hdeferred dependency hmem]
  · refine Or.inl (isWaiting_iff.mpr ?_)
    push Not at hdeferred
    obtain ⟨dependency, hmem, hnot⟩ := hdeferred
    obtain ⟨specifier, -, hanswer⟩ := forall₂_mem_right h hmem
    refine ⟨dependency, hmem, ?_⟩
    cases hanswer with
    | deferred _ => exact absurd rfl hnot
    | refused _ _ => exact ⟨_, rfl⟩
    | recorded _ _ _ => exact ⟨_, rfl⟩

/-- A turn ends outside of the linking phase, or at its beginning. -/
theorem Turn.isParked (h : Turn path session after) (hnext : after.find? path = some next) :
    next.task.IsParked := by
  have hsame : ∀ {changed : Record}, after.find? path = some changed →
      changed.task.IsParked → next.task.IsParked := by
    intro changed hchanged hparked
    rw [hnext, Option.some.injEq] at hchanged
    exact hchanged ▸ hparked
  cases h with
  | call hfound hcalls =>
    exact hsame (find?_called hfound)
      (Task.isParked_of_not_linking fun linking => (hcalls.not_linking linking).2)
  | link hfound _ _ _ _ =>
    exact hsame (find?_linked hfound) (isParked_of_answers (dependAll_answers session path _))
  | execute hfound _ _ => exact hsame (find?_executed hfound) trivial
  | abandon hfound _ _ _ _ => exact hsame (find?_abandoned hfound) trivial
  | resolve hfound _ _ => exact hsame (find?_resolved hfound) trivial
  | raise hfound _ => exact hsame (find?_raised hfound) trivial
  | inherit hfound _ _ => exact hsame (find?_setTask_self hfound) trivial
  | fill hfound htask _ _ _ =>
    exact hsame (find?_setSlot_self hfound) (Task.isParked_of_not_linking (by simp [htask]))
  | follow hfound _ _ _ => exact hsame (find?_followed hfound) trivial

theorem Turn.allParked (h : Turn path session after) (hall : AllParked session) :
    AllParked after := by
  intro other next hnext
  by_cases hother : other = path
  · exact h.isParked (hother ▸ hnext)
  · rcases h.reworked.fresh other next hnext with hsome | hfresh
    · obtain ⟨record, hfound⟩ := Option.isSome_iff_exists.mp hsome
      have hkept := h.reworked.others other record hother hfound
      rw [hnext, Option.some.injEq] at hkept
      exact hkept ▸ hall other record hfound
    · rw [hfresh.2.1]
      trivial

theorem allParked_of_turns (h : Relation.TransGen (Turn path) session after)
    (hall : AllParked session) : AllParked after := by
  induction h with
  | single hturn => exact hturn.allParked hall
  | tail _ hturn ih => exact hturn.allParked ih

/-- Only the record at `path` has changed, and its load is parked. -/
theorem AllParked.of_others (hall : AllParked session)
    (hothers : ∀ other, other ≠ path → after.find? other = session.find? other)
    (hown : ∀ record, after.find? path = some record → record.task.IsParked) :
    AllParked after := by
  intro other next hnext
  by_cases hother : other = path
  · exact hown next (hother ▸ hnext)
  · rw [hothers other hother] at hnext
    exact hall other next hnext

/-- **One step of a load leaves it parked.** The two ends of the linking phase are what counts: a
module that still waits stays there with what has arrived, and one that does not is run at once. -/
theorem advance_parked (hsound : Sound (record.path :: busy) poll) (hpoll : Keeps AllParked poll)
    (hfound : session.find? record.path = some record) (hall : AllParked session) :
    AllParked (session.advance poll record).1 := by
  have hgathered := fun dependencies : List Dependency => gather_keeps hpoll dependencies hall
  have hasked := fun request : Request => pollRequest_keeps hpoll request hall
  have hstep := @advance_way session record poll hfound
  generalize session.advance poll record = progress at hstep
  cases hstep with
  | closed _ _ => exact hall
  | settled _ => exact hall
  | turns hturns => exact allParked_of_turns hturns hall
  | @abandons linking mid failure htask hgather =>
    have hmid := hgathered linking.dependencies
    rw [hgather] at hmid
    exact (abandon_turn hsound hfound htask hgather).2.allParked hmid
  | @waits linking mid noted htask hgather hwaiting =>
    have hmid := hgathered linking.dependencies
    rw [hgather] at hmid
    obtain ⟨-, hown, -⟩ := note_look hsound hfound htask hgather
    -- the module still waits, and its record says so
    refine hmid.of_others (fun other hne => by rw [find?_setTask, if_neg hne]) ?_
    intro next hnext
    rw [find?_setTask_self hown, Option.some.injEq] at hnext
    subst hnext
    exact Or.inl hwaiting
  | @executes linking mid noted htask hgather hready =>
    have hmid := hgathered linking.dependencies
    rw [hgather] at hmid
    obtain ⟨-, hown, -⟩ := note_look hsound hfound htask hgather
    -- nothing is waited for any more, and the module is run
    refine hmid.of_others (fun other (hne : other ≠ record.path) => ?_) ?_
    · rw [execute_eq, find?_setTask, if_neg hne]
      rfl
    · intro next hnext
      rw [find?_executed hown, Option.some.injEq] at hnext
      subst hnext
      trivial
  | @unanswered request mid htask hpolled =>
    have hmid := hasked request
    rw [hpolled] at hmid
    exact hmid
  | @resolves request mid content htask hpolled =>
    have hmid := hasked request
    rw [hpolled] at hmid
    exact (followed_turn hsound hfound htask hpolled).2.allParked hmid
  | @inherits request mid failure htask hpolled =>
    have hmid := hasked request
    rw [hpolled] at hmid
    exact (followed_turn hsound hfound htask hpolled).2.allParked hmid

theorem run_parked (hall : AllParked session) : AllParked session.run.1 :=
  run_keeps
    (pollFor_keeps fun _ _ _ _ hsound hpoll hfound h => advance_parked hsound hpoll hfound h)
    (fun _ _ _ h => h) hall

theorem act_parked (action : Action) (hall : AllParked session) :
    AllParked (session.act action) := by
  intro path next hnext
  rcases act_fresh action hnext with hsome | hfresh
  · obtain ⟨record, hfound⟩ := Option.isSome_iff_exists.mp hsome
    rcases act_found action hfound with hkept | ⟨content, -, -, hsealed⟩
    · rw [hnext, Option.some.injEq] at hkept
      exact hkept ▸ hall path record hfound
    · rw [hnext, Option.some.injEq] at hsealed
      rw [hsealed]
      exact hall path record hfound
  · rw [hfresh.2.1]
    trivial

theorem performAll_parked (commands : List Command) (hall : AllParked session) :
    AllParked (session.performAll commands) := by
  induction commands generalizing session with
  | nil => exact hall
  | cons command rest ih =>
    refine ih ?_
    cases command with
    | act action => exact act_parked action hall
    | run => exact run_parked hall
    | load specifier referrer => exact run_parked (act_parked _ hall)

/-! ## The law -/

/-- The load of the module at `path` is suspended among its dependencies: it has asked for all of
them, and waits for one at least. -/
def Suspended (session : Session) (path : String) (linking : Linking) : Prop :=
  ∃ record, session.find? path = some record ∧ record.task = .linking linking ∧
    linking.isWaiting = true

/-- A module has an edge exactly while it is suspended. -/
theorem AllParked.edge_iff (hall : AllParked session) (hmatch : WaitsMatch session) :
    (∃ target, (path, target) ∈ session.waits.edges) ↔
      ∃ linking, session.Suspended path linking := by
  constructor
  · rintro ⟨target, hedge⟩
    obtain ⟨record, linking, hfound, htask, dependency, hmem, hnot, hpath⟩ :=
      linking_of_waitedFor ((hmatch.edges path target).mp hedge)
    have hparked := hall path record hfound
    rw [htask] at hparked
    rcases hparked with hwaits | hnone
    · exact ⟨linking, record, hfound, htask, hwaits⟩
    · have htarget := mem_waitedFor.mpr ⟨dependency, hmem, hnot, hpath⟩
      rw [hnone] at htarget
      exact absurd htarget List.not_mem_nil
  · rintro ⟨linking, record, hfound, htask, hwaits⟩
    obtain ⟨dependency, hmem, request, hwaiting⟩ := isWaiting_iff.mp hwaits
    refine ⟨dependency.path, (hmatch.edges path _).mpr ?_⟩
    rw [waitedFor_of_find? hfound, htask]
    exact mem_waitedFor.mpr ⟨dependency, hmem, by rw [hwaiting]; simp, rfl⟩

/-- The edges of a suspended module lead to the dependencies that did not lead back to it when it
asked for them. -/
theorem Asked.edge_iff {allowed : Action → Prop} {base requested : Session} {loader : Loader}
    {linking : Linking} (hasked : Asked allowed base requested session path loader linking)
    (hmatch : WaitsMatch session) (hsuspended : session.Suspended path linking) (target : String) :
    (path, target) ∈ session.waits.edges ↔ ∃ specifier ∈ linking.requests.paths,
      Path.resolve path specifier = target ∧ requested.waits.leads target path = false := by
  obtain ⟨record, hfound, htask, -⟩ := hsuspended
  rw [hmatch.edges, waitedFor_of_find? hfound, htask]
  show target ∈ linking.dependencies.filterMap Dependency.waitedFor? ↔ _
  rw [mem_waitedFor]
  constructor
  · rintro ⟨dependency, hmem, hnot, rfl⟩
    obtain ⟨specifier, hspecifier, hjudged⟩ := forall₂_mem_right hasked.judged hmem
    refine ⟨specifier, hspecifier, hjudged.path_eq.symm, ?_⟩
    rw [← Bool.not_eq_true, ← hjudged.deferred_iff]
    exact hnot
  · rintro ⟨specifier, hspecifier, rfl, hfree⟩
    obtain ⟨dependency, hmem, hjudged⟩ := forall₂_mem_left hasked.judged hspecifier
    refine ⟨dependency, hmem, fun hdeferred => ?_, hjudged.path_eq⟩
    have hleads := hjudged.deferred_iff.mp hdeferred
    rw [hjudged.path_eq, hfree] at hleads
    exact absurd hleads (by simp)

/-- **The wait graph between the commands**, whatever they are and with any loaders: it has no
cycle, and no edge from a module to itself. A module has edges exactly while its load is suspended
among its dependencies, so it has none once the load has ended, well or not, and none while it is
at a call to the host. While it is suspended there is the moment at which it asked for its
dependencies, and its edges lead exactly to the resolved paths of those that it agreed to wait for:
those that did not lead back to it in the wait graph of that moment. -/
theorem wait_graph_invariant (config : Config) (host : Host) (closed : String → Bool)
    (commands : List Command) :
    let base := start config host closed
    let session := base.performAll commands
    session.waits.Acyclic ∧
    (∀ path, (path, path) ∉ session.waits.edges) ∧
    (∀ path, (∃ target, (path, target) ∈ session.waits.edges) ↔
      ∃ linking, session.Suspended path linking) ∧
    (∀ path outcome, session.outcomeOf (.load path) = some outcome →
      ∀ target, (path, target) ∉ session.waits.edges) ∧
    (∀ path record call, session.find? path = some record →
      record.task.call? path = some call → ∀ target, (path, target) ∉ session.waits.edges) ∧
    (∀ path linking, session.Suspended path linking → ∃ requested loader,
      Asked (fun _ => True) base requested session path loader linking ∧
      ∀ target, (path, target) ∈ session.waits.edges ↔
        ∃ specifier ∈ linking.requests.paths,
          Path.resolve path specifier = target ∧ requested.waits.leads target path = false) := by
  intro base session
  have hsteps : Steps (fun _ => True) base session := performAll_steps allowed_of_all base
  have hmatch : WaitsMatch session := waitsMatch_of_start hsteps
  have hall : AllParked session :=
    performAll_parked commands fun _ _ hfound => absurd hfound (by simp [base, start, find?])
  -- an edge belongs to a module in its linking phase, which has not ended and is at no call
  have hlinking : ∀ {path target record}, (path, target) ∈ session.waits.edges →
      session.find? path = some record → ∃ linking, record.task = .linking linking := by
    intro path target record hedge hfound
    obtain ⟨other, linking, hother, htask, -⟩ :=
      linking_of_waitedFor ((hmatch.edges path target).mp hedge)
    rw [hfound, Option.some.injEq] at hother
    exact ⟨linking, hother ▸ htask⟩
  refine ⟨hmatch.acyclic, fun path hedge => hmatch.acyclic path path hedge (.refl path),
    fun path => hall.edge_iff hmatch, ?_, ?_, ?_⟩
  · intro path outcome houtcome target hedge
    obtain ⟨record, hfound, hsettled⟩ := outcomeOf_load_eq_some.mp houtcome
    obtain ⟨linking, htask⟩ := hlinking hedge hfound
    exact absurd (hsettled.symm.trans htask) (by simp)
  · intro path record call hfound hcall target hedge
    obtain ⟨linking, htask⟩ := hlinking hedge hfound
    rw [htask] at hcall
    exact absurd hcall (by simp [Task.call?])
  · intro path linking hsuspended
    obtain ⟨record, hfound, htask, -⟩ := id hsuspended
    obtain ⟨requested, hasked⟩ := asked_of_start hsteps path record hfound linking htask
    exact ⟨requested, record.loader, hasked, hasked.edge_iff hmatch hsuspended⟩

end Session

end ScriptLink
