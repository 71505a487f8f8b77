import ScriptLink.Proofs.Session.Steps

/-!
# One load per path

However often and from wherever a module is requested, its handler is started once: the record
made by the first request stays, and its load only ever goes forward.

* **`Task.stage`** — how far a load is. `Step.keeps`: no step takes a record away, gives it
  another loader, or takes its load back to an earlier stage.
* **`LogMatches`** — the log agrees with the stages. A path is among those that have been
  started, or executed, once at most, and only if its load has come that far. So the first of
  these calls is also the last.
* **`one_load_per_path`** — the law for every session and every sequence of commands.
-/

namespace ScriptLink

/-- The path whose handler starts with this call. -/
def HostCall.started? : HostCall → Option String
  | .fetch path | .stylesheet path | .custom path => some path
  | .execute _ _ | .style _ => none

/-- The path of the module that this call runs. -/
def HostCall.executed? : HostCall → Option String
  | .execute wrapper _ => some wrapper.path
  | _ => none

/-- How far a load is: not begun, begun, linking, or past the hand-over to the host. -/
def Task.stage : Task → Nat
  | .start => 0
  | .fetching | .injecting | .customizing _ => 1
  | .linking _ => 2
  | .executing _ _ _ | .styling _ _ _ _ | .following _ | .settled _ => 3

theorem Task.stage_eq_zero_iff {task : Task} : task.stage = 0 ↔ task = .start := by
  cases task <;> simp [Task.stage]

namespace Session

variable {session after last : Session} {path : String} {record : Record}
  {allowed : Action → Prop}

/-- How far the load of a path is; zero if there is none. -/
def stageOf (session : Session) (path : String) : Nat :=
  ((session.find? path).map (·.task.stage)).getD 0

theorem stageOf_of_find? (hfound : session.find? path = some record) :
    session.stageOf path = record.task.stage := by
  unfold stageOf
  rw [hfound]
  rfl

/-! ## Loads go forward -/

/-- The stages of the tasks that a call, a content or an error starts from. -/
theorem Calls.stage_le {call : HostCall} {task : Task} (h : Calls session record call task) :
    record.task.stage ≤ task.stage := by
  cases h <;> simp only [*, Task.stage] <;> omega

/-- No task is further than that of a load that has ended. -/
theorem Task.stage_le (task : Task) (outcome : Outcome) :
    task.stage ≤ (Task.settled outcome).stage := by
  cases task <;> simp [Task.stage]

/-- A load that moves is at the same stage afterwards or further. -/
theorem Moved.stage_le {next : Record} (h : Moved path session after record next) :
    record.task.stage ≤ next.task.stage := by
  cases h with
  | call hcalls => exact hcalls.stage_le
  | link htask _ _ _ _ _ => simp [htask, Task.stage]
  | execute htask _ _ => simp [htask, Task.stage]
  | abandon _ _ _ _ => exact Task.stage_le _ _
  | resolve _ _ => exact Task.stage_le _ _
  | raise _ => exact Task.stage_le _ _
  | inherit _ _ => exact Task.stage_le _ _
  | fill _ _ _ _ => exact Nat.le_refl _
  | follow htask _ _ _ => simp [htask, Task.stage]
  | note htask _ => simp [htask, Task.stage]

/-- **No step takes a record away, changes its loader, or takes its load back.** -/
theorem Step.keeps (h : Step allowed session after) (hfound : session.find? path = some record) :
    ∃ kept, after.find? path = some kept ∧ kept.loader = record.loader ∧
      record.task.stage ≤ kept.task.stage := by
  cases h with
  | @move actor _ hmove =>
    by_cases hactor : path = actor
    · subst hactor
      obtain ⟨before, kept, hbefore, -, hkept, hloader⟩ := hmove.reworked.own
      rw [hfound, Option.some.injEq] at hbefore
      subst hbefore
      exact ⟨kept, hkept, hloader, (hmove.moved hfound hkept).stage_le⟩
    · exact ⟨record, hmove.reworked.others path record hactor hfound, rfl, Nat.le_refl _⟩
  | settle _ _ => exact ⟨record, hfound, rfl, Nat.le_refl _⟩
  | @act action _ =>
    rcases act_found action hfound with hkept | ⟨content, -, -, hkept⟩
    · exact ⟨record, hkept, rfl, Nat.le_refl _⟩
    · exact ⟨_, hkept, rfl, Nat.le_refl _⟩

theorem Steps.keeps (h : Steps allowed session after)
    (hfound : session.find? path = some record) :
    ∃ kept, after.find? path = some kept ∧ kept.loader = record.loader ∧
      record.task.stage ≤ kept.task.stage := by
  induction h with
  | refl => exact ⟨record, hfound, rfl, Nat.le_refl _⟩
  | tail _ hstep ih =>
    obtain ⟨between, hbetween, hloader1, hstage1⟩ := ih
    obtain ⟨kept, hkept, hloader2, hstage2⟩ := hstep.keeps hbetween
    exact ⟨kept, hkept, hloader2.trans hloader1, Nat.le_trans hstage1 hstage2⟩

theorem Step.stage_le (h : Step allowed session after) (path : String) :
    session.stageOf path ≤ after.stageOf path := by
  cases hfound : session.find? path with
  | none => simp [stageOf, hfound]
  | some record =>
    obtain ⟨kept, hkept, -, hstage⟩ := h.keeps hfound
    rw [stageOf_of_find? hfound, stageOf_of_find? hkept]
    exact hstage

theorem Step.nodup (h : Step allowed session after)
    (hnodup : (session.records.map Record.path).Nodup) :
    (after.records.map Record.path).Nodup := by
  cases h with
  | move hmove => exact hmove.reworked.nodup hnodup
  | settle _ _ => exact hnodup
  | act _ => exact act_nodup _ hnodup

/-! ## The log -/

/-- **What a move adds to the log**: nothing, or one call. A call that starts the handler of a
path is made by the load of that path at stage zero, which it leaves; and so for the call that
runs a module at stage three. -/
theorem Move.log_cases (h : Move path session after) :
    after.log = session.log ∨ ∃ call, after.log = session.log.push call ∧
      (call.started? = none ∨
        call.started? = some path ∧ session.stageOf path = 0 ∧ 1 ≤ after.stageOf path) ∧
      (call.executed? = none ∨
        call.executed? = some path ∧ session.stageOf path < 3 ∧ 3 ≤ after.stageOf path) := by
  rcases h with hturn | hlook
  · cases hturn with
    | @call record call task hfound hcalls =>
      have hpath := path_of_find? hfound
      refine Or.inr ⟨call, rfl, ?_⟩
      rw [stageOf_of_find? hfound, stageOf_of_find? (find?_called hfound)]
      cases hcalls <;> simp [HostCall.started?, HostCall.executed?, Task.stage, *]
    | link hfound _ _ _ _ => exact Or.inl (grown_dependAll path _ session).log
    | @execute record linking hfound htask _ =>
      refine Or.inr ⟨_, rfl, Or.inl rfl, Or.inr ⟨rfl, ?_, ?_⟩⟩
      · rw [stageOf_of_find? hfound, htask]
        simp [Task.stage]
      · rw [stageOf_of_find? (find?_executed hfound)]
        simp [Task.stage]
    | follow _ _ _ _ => exact Or.inl (grown_request session _ path).log
    | _ => exact Or.inl rfl
  · cases hlook with
    | note _ _ _ => exact Or.inl rfl

/-- The log agrees with the stages of the loads: each path was started once at most, and only
if its load has begun; and each was executed once at most, and only if its load is past that. -/
structure LogMatches (session : Session) : Prop where
  started : (session.log.toList.filterMap HostCall.started?).Nodup
  executed : (session.log.toList.filterMap HostCall.executed?).Nodup
  stage_of_started : ∀ path ∈ session.log.toList.filterMap HostCall.started?,
    1 ≤ session.stageOf path
  stage_of_executed : ∀ path ∈ session.log.toList.filterMap HostCall.executed?,
    3 ≤ session.stageOf path

theorem logMatches_start (config : Config) (host : Host) (closed : String → Bool) :
    LogMatches (start config host closed) :=
  ⟨List.nodup_nil, List.nodup_nil, fun _ h => absurd h List.not_mem_nil,
    fun _ h => absurd h List.not_mem_nil⟩

/-- A list of distinct paths stays so when one more path comes that is not in it. -/
theorem nodup_filterMap_push {log : Array HostCall} {call : HostCall}
    {pathOf? : HostCall → Option String} (hnodup : (log.toList.filterMap pathOf?).Nodup)
    (hnew : ∀ path, pathOf? call = some path → path ∉ log.toList.filterMap pathOf?) :
    ((log.push call).toList.filterMap pathOf?).Nodup := by
  rw [Array.toList_push, List.filterMap_append]
  cases hcall : pathOf? call with
  | none => simpa [hcall] using hnodup
  | some path =>
    simp only [List.filterMap_cons, hcall, List.filterMap_nil]
    refine hnodup.append (List.nodup_singleton path) fun name hold hsingle => ?_
    rw [List.mem_singleton] at hsingle
    subst hsingle
    exact hnew name hcall hold

theorem mem_filterMap_push {log : Array HostCall} {call : HostCall}
    {pathOf? : HostCall → Option String}
    (h : path ∈ (log.push call).toList.filterMap pathOf?) :
    path ∈ log.toList.filterMap pathOf? ∨ pathOf? call = some path := by
  rw [Array.toList_push, List.filterMap_append] at h
  rcases List.mem_append.mp h with hold | hnew
  · exact Or.inl hold
  · rw [List.mem_filterMap] at hnew
    obtain ⟨made, hmade, hpath⟩ := hnew
    rw [List.mem_singleton] at hmade
    exact Or.inr (hmade ▸ hpath)

/-- A call that marks a path keeps the marked paths distinct, if the load of the path was below
the stage that goes with the mark and has reached it by the call. -/
theorem marks_push {call : HostCall} {actor : String} {pathOf? : HostCall → Option String}
    {stage : Nat} (hnodup : (session.log.toList.filterMap pathOf?).Nodup)
    (hreached : ∀ path ∈ session.log.toList.filterMap pathOf?, stage ≤ session.stageOf path)
    (hlog : after.log = session.log.push call)
    (hstage : ∀ path, session.stageOf path ≤ after.stageOf path)
    (hcall : pathOf? call = none ∨
      pathOf? call = some actor ∧ session.stageOf actor < stage ∧ stage ≤ after.stageOf actor) :
    (after.log.toList.filterMap pathOf?).Nodup ∧
      ∀ path ∈ after.log.toList.filterMap pathOf?, stage ≤ after.stageOf path := by
  rw [hlog]
  refine ⟨nodup_filterMap_push hnodup fun name hname hmem => ?_, fun name hmem => ?_⟩
  · rcases hcall with hnone | ⟨hsome, hbelow, -⟩
    · rw [hnone] at hname
      exact absurd hname (by simp)
    · -- a path that is marked already has reached the stage
      rw [hsome, Option.some.injEq] at hname
      subst hname
      have := hreached _ hmem
      omega
  · rcases mem_filterMap_push hmem with hold | hnew
    · exact Nat.le_trans (hreached name hold) (hstage name)
    · rcases hcall with hnone | ⟨hsome, -, hafter⟩
      · rw [hnone] at hnew
        exact absurd hnew (by simp)
      · rw [hsome, Option.some.injEq] at hnew
        exact hnew ▸ hafter

theorem LogMatches.step (h : LogMatches session) (hstep : Step allowed session after) :
    LogMatches after := by
  have hstage := hstep.stage_le
  -- unless the log grows, all that is left to say is that no load has gone back
  have hsame : after.log = session.log → LogMatches after := by
    intro hlog
    exact ⟨hlog ▸ h.started, hlog ▸ h.executed,
      fun path hmem => Nat.le_trans (h.stage_of_started path (hlog ▸ hmem)) (hstage path),
      fun path hmem => Nat.le_trans (h.stage_of_executed path (hlog ▸ hmem)) (hstage path)⟩
  cases hstep with
  | settle _ _ => exact hsame rfl
  | act _ => exact hsame (act_log _)
  | @move actor _ hmove =>
    rcases hmove.log_cases with hlog | ⟨call, hlog, hstarted, hexecuted⟩
    · exact hsame hlog
    · have hstarts : call.started? = none ∨ call.started? = some actor ∧
          session.stageOf actor < 1 ∧ 1 ≤ after.stageOf actor :=
        hstarted.imp_right fun ⟨hsome, hzero, hone⟩ => ⟨hsome, by omega, hone⟩
      obtain ⟨hstartednodup, hstartedstage⟩ :=
        marks_push h.started h.stage_of_started hlog hstage hstarts
      obtain ⟨hexecutednodup, hexecutedstage⟩ :=
        marks_push h.executed h.stage_of_executed hlog hstage hexecuted
      exact ⟨hstartednodup, hexecutednodup, hstartedstage, hexecutedstage⟩

/-! ## The law -/

/-- A request that is refused leaves the records as they are. -/
theorem request_records_of_unknown {specifier referrer : String}
    (h : session.loaders.find? specifier = none) :
    (session.request specifier referrer).1.records = session.records := by
  unfold request
  rw [h]
  rfl

theorem nodup_of_start {config : Config} {host : Host} {closed : String → Bool}
    (h : Steps allowed (start config host closed) session) :
    (session.records.map Record.path).Nodup :=
  h.preserves (fun _ _ hstep => hstep.nodup) List.nodup_nil

theorem logMatches_of_start {config : Config} {host : Host} {closed : String → Bool}
    (h : Steps allowed (start config host closed) session) : LogMatches session :=
  h.preserves (fun _ _ hstep hmatches => hmatches.step hstep) (logMatches_start config host closed)

/-- Every command may be used if every action may. -/
theorem allowed_of_all {commands : List Command} :
    ∀ command ∈ commands, command.Allowed fun _ => True := by
  intro command _
  cases command <;> trivial

/-- **One load per resolved path.** In a session that has been used by any commands, with any
loaders, no two calls of the log start the handler of one path (by a fetch, a style sheet or a
registered loader's call), no two run the module at one path, and no two records have one path.
Whatever is done later, a record stays under its path with its loader, and a load that has begun
is never again one that has not. A request for an unknown suffix leaves the records alone. -/
theorem one_load_per_path (config : Config) (host : Host) (closed : String → Bool)
    (earlier later : List Command) :
    let session := (start config host closed).performAll earlier
    let last := session.performAll later
    (session.log.toList.filterMap HostCall.started?).Nodup ∧
    (session.log.toList.filterMap HostCall.executed?).Nodup ∧
    (session.records.map Record.path).Nodup ∧
    (∀ path record, session.find? path = some record →
      ∃ kept, last.find? path = some kept ∧ kept.path = record.path ∧
        kept.loader = record.loader ∧ (record.task ≠ .start → kept.task ≠ .start)) ∧
    (∀ specifier referrer, session.loaders.find? specifier = none →
      (session.request specifier referrer).1.records = session.records) := by
  intro session last
  have hsteps : Steps (fun _ => True) (start config host closed) session :=
    performAll_steps allowed_of_all _
  have hlater : Steps (fun _ => True) session last := performAll_steps allowed_of_all _
  have hmatches := logMatches_of_start hsteps
  refine ⟨hmatches.started, hmatches.executed, nodup_of_start hsteps, ?_,
    fun _ _ => request_records_of_unknown⟩
  intro path record hfound
  obtain ⟨kept, hkept, hloader, hstage⟩ := hlater.keeps hfound
  refine ⟨kept, hkept, (path_of_find? hkept).trans (path_of_find? hfound).symm, hloader,
    fun hbegun hstart => ?_⟩
  rw [hstart] at hstage
  exact hbegun (Task.stage_eq_zero_iff.mp (Nat.le_zero.mp hstage))

end Session

end ScriptLink
