import ScriptLink.Proofs.Session.Waiting

/-!
# Loads that cannot go on

A load cannot go on if it stands at a closed gate, or if it waits for loads that cannot go on
either. Nothing but a gate that opens changes that: what such a load waits for does not end, so
the load has no turn, whoever else moves.

* **`Stuck`** — the inductive definition, from the closed gates upwards. A cycle of modules that
  wait for each other would not be stuck in this sense, and would not move either; the point of
  the wait graph is that there is none.
* **`Stuck.leads`** — the wait graph leads from a stuck load to a closed gate.
* **`Stuck.moves`** — a stuck load stays stuck.
-/

namespace ScriptLink

namespace Session

variable {allowed : Action → Prop} {session after : Session} {path : String} {record : Record}
  {busy : List String}

/-- The load of `path` stands at a closed gate, or waits, and only for loads that are stuck. -/
inductive Stuck (session : Session) : String → Prop where
  | atGate {path : String} {record : Record} {call : HostCall}
      (hfound : session.find? path = some record) (hcall : record.task.call? path = some call)
      (hclosed : session.closed call.gate = true) : Stuck session path
  | waiting {path : String} {record : Record} {linking : Linking}
      (hfound : session.find? path = some record) (htask : record.task = .linking linking)
      (hwaits : linking.isWaiting = true)
      (hloads : ∀ dependency ∈ linking.dependencies, ∀ failure,
        dependency.waiting ≠ .awaited (.refused failure))
      (hstuck : ∀ dependency ∈ linking.dependencies, ∀ target,
        dependency.waiting = .awaited (.load target) → Stuck session target) :
      Stuck session path

theorem Task.outcome?_of_call? {task : Task} {call : HostCall}
    (h : task.call? path = some call) : task.outcome? = none := by
  cases task <;> first | rfl | exact absurd h (by simp [Task.call?])

/-- A stuck load has not ended. -/
theorem Stuck.outcomeOf (h : Stuck session path) : session.outcomeOf (.load path) = none := by
  show (session.find? path).bind _ = none
  cases h with
  | atGate hfound hcall _ =>
    rw [hfound]
    exact Task.outcome?_of_call? hcall
  | waiting hfound htask _ _ _ =>
    rw [hfound, Option.bind_some, htask]
    rfl

theorem isWaiting_iff {linking : Linking} : linking.isWaiting = true ↔
    ∃ dependency ∈ linking.dependencies, ∃ request, dependency.waiting = .awaited request := by
  unfold Linking.isWaiting
  rw [List.any_eq_true]
  refine exists_congr fun dependency => and_congr_right fun _ => ?_
  cases dependency.waiting <;> simp

/-! ## The way to the gate -/

/-- A module that awaits a load has an edge to it, and the load is recorded. -/
theorem awaited_load {linking : Linking} (hmatch : WaitsMatch session)
    (hlinks : LinksMatch session) (hfound : session.find? path = some record)
    (htask : record.task = .linking linking) {dependency : Dependency} {target : String}
    (hmem : dependency ∈ linking.dependencies)
    (hwaiting : dependency.waiting = .awaited (.load target)) :
    (path, target) ∈ session.waits.edges ∧ (session.find? target).isSome = true := by
  obtain ⟨specifier, -, hstanding⟩ :=
    forall₂_mem_right (hlinks path record hfound linking htask) hmem
  have hpath : dependency.path = target ∧ (session.find? target).isSome = true := by
    cases hstanding with
    | refused => exact absurd (Waiting.awaited.inj hwaiting) (by simp)
    | recorded hrecorded =>
      obtain rfl := Request.load.inj (Waiting.awaited.inj hwaiting)
      exact ⟨rfl, hrecorded⟩
    | arrived _ => exact absurd hwaiting (by simp)
    | deferred => exact absurd hwaiting (by simp)
  refine ⟨?_, hpath.2⟩
  rw [hmatch.edges, waitedFor_of_find? hfound, htask]
  exact mem_waitedFor.mpr ⟨dependency, hmem, by rw [hwaiting]; simp, hpath.1⟩

/-- **The wait graph leads from a stuck load to a closed gate.** -/
theorem Stuck.leads (h : Stuck session path) (hmatch : WaitsMatch session)
    (hlinks : LinksMatch session) :
    ∃ last record call, session.waits.Leads path last ∧ session.find? last = some record ∧
      record.task.call? last = some call ∧ session.closed call.gate = true := by
  -- from the gate upwards: one awaited load is enough, and there is one
  induction h with
  | atGate hfound hcall hclosed => exact ⟨_, _, _, .refl _, hfound, hcall, hclosed⟩
  | waiting hfound htask hwaits hloads _ ih =>
    obtain ⟨dependency, hmem, request, hwaiting⟩ := isWaiting_iff.mp hwaits
    cases request with
    | refused failure => exact absurd hwaiting (hloads dependency hmem failure)
    | load target =>
      obtain ⟨last, record, call, hleads, hgate⟩ := ih dependency hmem target hwaiting
      have hedge := (awaited_load hmatch hlinks hfound htask hmem hwaiting).1
      exact ⟨last, record, call, .step hedge hleads, hgate⟩

/-! ## A stuck load does not move -/

theorem Calls.passes {call passed : HostCall} {task : Task}
    (h : Calls session record call task) (hcall : record.task.call? record.path = some passed) :
    session.pass? passed ≠ none := by
  cases h with
  | fetch htask _ => exact absurd hcall (by simp [htask, Task.call?])
  | stylesheet htask _ => exact absurd hcall (by simp [htask, Task.call?])
  | custom htask _ => exact absurd hcall (by simp [htask, Task.call?])
  | firstStyle htask hpass _ =>
    rw [htask, Task.call?, Option.some.injEq] at hcall
    rw [← hcall, hpass]
    simp
  | nextStyle htask hpass =>
    rw [htask, Task.call?, Option.some.injEq] at hcall
    rw [← hcall, hpass]
    simp

theorem Yields.passes {content : Content} {passed : HostCall}
    (h : Yields session record content) (hcall : record.task.call? record.path = some passed) :
    session.pass? passed ≠ none := by
  cases h with
  | echo htask _ => exact absurd hcall (by simp [htask, Task.call?])
  | following htask _ => exact absurd hcall (by simp [htask, Task.call?])
  | script htask hpass => simp_all [Task.call?]
  | component htask hpass _ _ => simp_all [Task.call?]
  | styled htask hpass _ => simp_all [Task.call?]
  | stylesheet htask hpass => simp_all [Task.call?]
  | custom htask hpass _ _ => simp_all [Task.call?]

theorem Raises.passes {error : LoadError} {passed : HostCall}
    (h : Raises session record error) (hcall : record.task.call? record.path = some passed) :
    session.pass? passed ≠ none := by
  cases h with
  | refused hpending hpass =>
    obtain rfl := Option.some.inj (hpending.symm.trans hcall)
    rw [hpass]
    simp
  | duplicate hyields _ => exact hyields.passes hcall
  | missing htask hpass _ => simp_all [Task.call?]
  | transpile htask hpass _ _ => simp_all [Task.call?]
  | bareComponent htask hpass _ _ => simp_all [Task.call?]
  | styledComponent htask hpass _ => simp_all [Task.call?]
  | custom htask hpass _ _ => simp_all [Task.call?]
  | customDuplicate htask hpass _ _ => simp_all [Task.call?]

/-- A load at a gate changes only if the gate is open. -/
theorem Moved.passes {next : Record} {call : HostCall}
    (h : Moved record.path session after record next)
    (hcall : record.task.call? record.path = some call) : session.pass? call ≠ none := by
  cases h with
  | call hcalls => exact hcalls.passes hcall
  | resolve hyields _ => exact hyields.passes hcall
  | raise hraises => exact hraises.passes hcall
  | execute htask _ _ => exact absurd hcall (by simp [htask, Task.call?])
  | abandon htask _ _ _ => exact absurd hcall (by simp [htask, Task.call?])
  | inherit htask _ => exact absurd hcall (by simp [htask, Task.call?])
  | note htask _ => exact absurd hcall (by simp [htask, Task.call?])
  | link htask hpass _ _ _ _ => simp_all [Task.call?]
  | fill htask hpass _ _ => simp_all [Task.call?]
  | follow htask hpass _ _ => simp_all [Task.call?]

/-- A module in its linking phase goes on only if it waits for nothing any more, or if a load
that it awaits has failed, and then it fails as well; otherwise it notes what has arrived. -/
theorem Moved.of_linking {next : Record} {linking : Linking}
    (h : Moved path session after record next) (htask : record.task = .linking linking) :
    linking.isWaiting = false ∨
      (∃ dependency ∈ linking.dependencies, ∃ request failure,
        dependency.waiting = .awaited request ∧
        session.outcomeOf request = some (.error failure) ∧
        next.task = .settled (.error failure)) ∨
      ∃ noted, Gathered session linking.dependencies noted ∧
        next = { record with task := .linking { linking with dependencies := noted } } := by
  cases h with
  | call hcalls => exact absurd htask (hcalls.not_linking linking).1
  | execute hother hready _ =>
    obtain rfl := Task.linking.inj (hother.symm.trans htask)
    exact Or.inl hready
  | abandon hother hmem hwaiting hfailed =>
    obtain rfl := Task.linking.inj (hother.symm.trans htask)
    exact Or.inr (Or.inl ⟨_, hmem, _, _, hwaiting, hfailed, rfl⟩)
  | note hother hgathered =>
    obtain rfl := Task.linking.inj (hother.symm.trans htask)
    exact Or.inr (Or.inr ⟨_, hgathered, rfl⟩)
  | resolve hyields _ => exact absurd htask (hyields.not_linking linking)
  | raise hraises => exact absurd htask (hraises.not_linking linking)
  | link hother _ _ _ _ _ => exact absurd (hother.symm.trans htask) (by simp)
  | inherit hother _ => exact absurd (hother.symm.trans htask) (by simp)
  | fill hother _ _ _ => exact absurd (hother.symm.trans htask) (by simp)
  | follow hother _ _ _ => exact absurd (hother.symm.trans htask) (by simp)

/-- Nothing has arrived at a module that waits for stuck loads only. -/
theorem Gathered.eq_of_open {dependencies noted : List Dependency}
    (h : Gathered session dependencies noted)
    (hopen : ∀ dependency ∈ dependencies, ∀ request,
      dependency.waiting = .awaited request → ∀ content,
      session.outcomeOf request ≠ some (.ok content)) : noted = dependencies := by
  induction h with
  | nil => rfl
  | cons hnoted _ ih =>
    rcases hnoted with rfl | ⟨request, content, hwaiting, houtcome, -⟩
    · rw [ih fun dependency hmem => hopen dependency (List.mem_cons_of_mem _ hmem)]
    · exact absurd houtcome (hopen _ List.mem_cons_self request hwaiting content)

/-- **A stuck load changes nothing about itself.** -/
theorem Stuck.moved_eq {next : Record} (h : Stuck session path)
    (hfound : session.find? path = some record)
    (hmoved : Moved path session after record next) : next = record := by
  have hpath := path_of_find? hfound
  subst hpath
  cases h with
  | atGate hold hcall hclosed =>
    obtain rfl := Option.some.inj (hold.symm.trans hfound)
    exact absurd (pass?_eq_none_iff.mpr hclosed) (hmoved.passes hcall)
  | @waiting _ other linking hold htask hwaits hloads hstuck =>
    obtain rfl := Option.some.inj (hold.symm.trans hfound)
    -- none of the loads that it awaits has an outcome
    have hopen : ∀ dependency ∈ linking.dependencies, ∀ request,
        dependency.waiting = .awaited request → session.outcomeOf request = none := by
      intro dependency hmem request hwaiting
      cases request with
      | refused failure => exact absurd hwaiting (hloads dependency hmem failure)
      | load target => exact (hstuck dependency hmem target hwaiting).outcomeOf
    rcases hmoved.of_linking htask with hready | ⟨dependency, hmem, request, failure, hwaiting,
      hfailed, -⟩ | ⟨noted, hgathered, rfl⟩
    · rw [hwaits] at hready
      exact absurd hready (by simp)
    · rw [hopen dependency hmem request hwaiting] at hfailed
      exact absurd hfailed (by simp)
    · rw [hgathered.eq_of_open fun dependency hmem request hwaiting content hcontent => by
        rw [hopen dependency hmem request hwaiting] at hcontent
        exact absurd hcontent (by simp), ← htask]

/-- A move leaves the record of a stuck load as it is. -/
theorem Stuck.find?_moved {actor : String} (h : Stuck session path)
    (hmove : Move actor session after) (hfound : session.find? path = some record) :
    after.find? path = some record := by
  by_cases hactor : path = actor
  · subst hactor
    obtain ⟨_, next, -, -, hnext, -⟩ := hmove.reworked.own
    rw [hnext, h.moved_eq hfound (hmove.moved hfound hnext)]
  · exact hmove.reworked.others path record hactor hfound

/-- What is stuck stays stuck while the gates and the records of stuck loads stay. -/
theorem Stuck.of_kept (h : Stuck session path)
    (hkept : ∀ path record, Stuck session path → session.find? path = some record →
      after.find? path = some record)
    (hclosed : after.closed = session.closed) : Stuck after path := by
  induction h with
  | atGate hfound hcall hgate =>
    exact .atGate (hkept _ _ (.atGate hfound hcall hgate) hfound) hcall (hclosed ▸ hgate)
  | waiting hfound htask hwaits hloads hstuck ih =>
    exact .waiting (hkept _ _ (.waiting hfound htask hwaits hloads hstuck) hfound) htask hwaits
      hloads ih

theorem Stuck.move {actor : String} (h : Stuck session path)
    (hmove : Move actor session after) : Stuck after path :=
  h.of_kept (fun _ _ hstuck => hstuck.find?_moved hmove) hmove.reworked.closed

/-- **A stuck load stays stuck**, whatever the other loads do. -/
theorem Stuck.moves (h : Stuck session path) (hmoves : Moves busy session after) :
    Stuck after path := by
  induction hmoves with
  | refl => exact h
  | tail _ hmove ih => exact ih.move hmove.choose_spec.2

theorem Stuck.settle {handle : Nat} {outcome : Outcome} (h : Stuck session path) :
    Stuck (session.settle handle outcome) path :=
  h.of_kept (fun _ _ _ hfound => hfound) rfl

/-- Nothing but an action from outside sets a stuck load free. -/
theorem Stuck.steps (h : Stuck session path)
    (hsteps : Steps (fun _ => False) session after) : Stuck after path := by
  induction hsteps with
  | refl => exact h
  | tail _ hlast ih =>
    cases hlast with
    | move hmove => exact ih.move hmove
    | settle _ _ => exact ih.settle
    | act hnever => exact hnever.elim

end Session

end ScriptLink
