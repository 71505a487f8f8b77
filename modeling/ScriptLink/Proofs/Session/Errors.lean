import ScriptLink.Proofs.Session.Steps

/-!
# The errors of a session

An error is made once and then handed from load to load, so its number is its identity. Here it is
shown that the numbers do what they are for, and that an error says truly which module it is about.

* **`Numbered`** — every error that a session holds, in a load, in a dependency or in a handle, was
  made before the next one: its number is below the session's count. So an error that is made now
  is no error that anyone holds.
* **`Step.failed_cases`** — where the error of a load was one step before: with a request that had
  failed, or nowhere, since the load raises it.
* **`Blames`** — an error that names a module as the cause is the one with which the load of that
  module has ended.
-/

namespace ScriptLink

/-- The module that an error names as its cause. A missing loader is not the fault of the module
that was asked for, which may be loaded under another specifier. -/
def LoadError.module? : LoadError → Option String
  | .duplicateExport path | .transpile path _ | .invalidComponent path => some path
  | .unknownSuffix _ | .host _ => none

/-- A refusal is one of the first `count` errors, and it says what was asked for. -/
def Request.Numbered (count : Nat) (target : String) : Request → Prop
  | .refused failure => failure.id < count ∧ failure.error = .unknownSuffix target
  | .load _ => True

/-- All errors that a load holds are among the first `count`. -/
def Task.Numbered (count : Nat) : Task → Prop
  | .linking module => ∀ dependency ∈ module.dependencies, ∀ request,
      dependency.waiting = .awaited request → request.Numbered count dependency.path
  | .following request => ∃ target, request.Numbered count target
  | .settled (.error failure) => failure.id < count
  | _ => True

theorem Request.Numbered.mono {count more : Nat} {target : String} {request : Request}
    (h : request.Numbered count target) (hle : count ≤ more) : request.Numbered more target := by
  cases request with
  | refused failure => exact ⟨Nat.lt_of_lt_of_le h.1 hle, h.2⟩
  | load path => trivial

theorem Task.Numbered.mono {count more : Nat} {task : Task} (h : task.Numbered count)
    (hle : count ≤ more) : task.Numbered more := by
  cases task with
  | linking module =>
    exact fun dependency hmem request hwaiting => (h dependency hmem request hwaiting).mono hle
  | following request => exact h.imp fun _ hrequest => hrequest.mono hle
  | settled outcome =>
    cases outcome with
    | ok content => trivial
    | error failure => exact Nat.lt_of_lt_of_le h hle
  | _ => trivial

namespace Session

variable {allowed : Action → Prop} {session after last : Session} {path target : String}
  {record next : Record} {request : Request} {failure : Failure} {config : Config} {host : Host}
  {closed : String → Bool}

/-! ## Numbers -/

/-- Every error that a load, a dependency or a handle holds has been counted. -/
structure Numbered (session : Session) : Prop where
  loads : ∀ path record, session.find? path = some record → record.task.Numbered session.failures
  handles : ∀ handle ∈ session.handles, ∃ target, handle.request.Numbered session.failures target

theorem Numbered.id_lt (h : Numbered session) (hrequest : request.Numbered session.failures target)
    (hfailed : session.outcomeOf request = some (.error failure)) :
    failure.id < session.failures := by
  cases request with
  | refused refusal =>
    obtain rfl := Except.error.inj (Option.some.inj hfailed)
    exact hrequest.1
  | load path =>
    obtain ⟨record, hfound, htask⟩ := outcomeOf_load_eq_some.mp hfailed
    have hnumbered := h.loads path record hfound
    rw [htask] at hnumbered
    exact hnumbered

theorem request_numbered (session : Session) (specifier referrer : String) :
    session.failures ≤ (session.request specifier referrer).1.failures ∧
      (session.request specifier referrer).2.2.Numbered
        (session.request specifier referrer).1.failures (Path.resolve referrer specifier) := by
  unfold request
  split
  · exact ⟨Nat.le_succ _, Nat.lt_succ_self _, rfl⟩
  · dsimp only
    split
    · exact ⟨Nat.le_refl _, trivial⟩
    · exact ⟨Nat.le_refl _, trivial⟩

theorem depend_numbered (session : Session) (importer specifier : String) :
    session.failures ≤ (session.depend importer specifier).1.failures ∧
      ∀ request, (session.depend importer specifier).2.waiting = .awaited request →
        request.Numbered (session.depend importer specifier).1.failures
          (session.depend importer specifier).2.path := by
  obtain ⟨hle, hnumbered⟩ := request_numbered session specifier importer
  unfold depend
  dsimp only
  rw [request_path]
  split
  · refine ⟨hle, fun request hwaiting => ?_⟩
    obtain rfl := Waiting.awaited.inj hwaiting
    exact hnumbered
  · exact ⟨hle, fun request hwaiting => absurd hwaiting (by simp)⟩

theorem dependAll_numbered (importer : String) (specifiers : List String) (session : Session) :
    session.failures ≤ (session.dependAll importer specifiers).1.failures ∧
      ∀ dependency ∈ (session.dependAll importer specifiers).2, ∀ request,
        dependency.waiting = .awaited request →
          request.Numbered (session.dependAll importer specifiers).1.failures
            dependency.path := by
  induction specifiers generalizing session with
  | nil => exact ⟨Nat.le_refl _, fun _ hmem => absurd hmem List.not_mem_nil⟩
  | cons specifier rest ih =>
    obtain ⟨hle, hfirst⟩ := depend_numbered session importer specifier
    obtain ⟨hlater, hrest⟩ := ih (session.depend importer specifier).1
    refine ⟨Nat.le_trans hle hlater, fun dependency hmem => ?_⟩
    rcases List.mem_cons.mp hmem with rfl | hmem
    · exact fun request hwaiting => (hfirst request hwaiting).mono hlater
    · exact hrest dependency hmem

theorem Move.failures_le (h : Move path session after) : session.failures ≤ after.failures := by
  rcases h with hturn | hlook
  · cases hturn with
    | link _ _ _ _ _ => exact (dependAll_numbered path _ session).1
    | raise _ _ => exact Nat.le_succ _
    | follow _ _ _ _ => exact (request_numbered session _ path).1
    | _ => exact Nat.le_refl _
  · cases hlook with
    | note _ _ _ => exact Nat.le_refl _

theorem Step.failures_le (h : Step allowed session after) : session.failures ≤ after.failures := by
  cases h with
  | move hmove => exact hmove.failures_le
  | settle _ _ => exact Nat.le_refl _
  | @act action _ =>
    cases action with
    | request specifier referrer => exact (request_numbered session specifier _).1
    | register suffix loader =>
      refine Nat.le_of_eq ?_
      rcases act_register_cases session suffix loader with heq | ⟨_, _, -, -, heq⟩ <;> rw [heq]
    | sealSlot path content =>
      refine Nat.le_of_eq ?_
      rcases act_sealSlot_cases session path content with heq | ⟨_, -, -, heq⟩
      · rw [heq]
      · rw [heq]
        rfl
    | _ => exact Nat.le_refl _

theorem Calls.numbered {call : HostCall} {task : Task} (h : Calls session record call task)
    (count : Nat) : task.Numbered count := by
  cases h <;> trivial

/-- What has arrived is no refusal, and the rest is as it was. -/
theorem Gathered.numbered {dependencies noted : List Dependency} {count : Nat}
    (h : Gathered session dependencies noted)
    (hnumbered : ∀ dependency ∈ dependencies, ∀ request, dependency.waiting = .awaited request →
      request.Numbered count dependency.path) :
    ∀ dependency ∈ noted, ∀ request, dependency.waiting = .awaited request →
      request.Numbered count dependency.path := by
  intro dependency hmem request hwaiting
  obtain ⟨old, hold, rfl | ⟨_, _, -, -, rfl⟩⟩ := forall₂_mem_right h hmem
  · exact hnumbered dependency hold request hwaiting
  · exact absurd hwaiting (by simp)

/-- The load that moves holds no error that has not been counted. -/
theorem Move.numbered (h : Move path session after) (hnumbered : Numbered session)
    (hnext : after.find? path = some next) : next.task.Numbered after.failures := by
  have hown : ∀ {changed : Record}, after.find? path = some changed →
      changed.task.Numbered after.failures → next.task.Numbered after.failures := by
    intro changed hchanged hholds
    rw [hnext, Option.some.injEq] at hchanged
    exact hchanged ▸ hholds
  rcases h with hturn | hlook
  · cases hturn with
    | call hfound hcalls => exact hown (find?_called hfound) (hcalls.numbered _)
    | link hfound _ _ _ _ => exact hown (find?_linked hfound) (dependAll_numbered path _ session).2
    | execute hfound _ _ => exact hown (find?_executed hfound) trivial
    | abandon hfound htask hmem hwaiting hfailed =>
      have hlinking := hnumbered.loads path _ hfound
      rw [htask] at hlinking
      exact hown (find?_abandoned hfound)
        (hnumbered.id_lt (hlinking _ hmem _ hwaiting) hfailed)
    | resolve hfound _ _ => exact hown (find?_resolved hfound) trivial
    | raise hfound _ => exact hown (find?_raised hfound) (Nat.lt_succ_self _)
    | inherit hfound htask hfailed =>
      have hfollowing := hnumbered.loads path _ hfound
      rw [htask] at hfollowing
      obtain ⟨target, hrequest⟩ := hfollowing
      exact hown (find?_setTask_self hfound) (hnumbered.id_lt hrequest hfailed)
    | @fill record _ _ hfound _ _ _ _ =>
      exact hown (find?_setSlot_self hfound) (hnumbered.loads path record hfound)
    | follow hfound _ _ _ =>
      exact hown (find?_followed hfound) ⟨_, (request_numbered session _ path).2⟩
  · cases hlook with
    | note hfound htask hgathered =>
      have hlinking := hnumbered.loads path _ hfound
      rw [htask] at hlinking
      exact hown (find?_setTask_self hfound) (hgathered.numbered hlinking)

theorem Numbered.step (h : Numbered session) (hstep : Step allowed session after) :
    Numbered after := by
  have hle := hstep.failures_le
  refine ⟨fun path next hnext => ?_, fun handle hmem => ?_⟩
  · cases hfound : session.find? path with
    | none =>
      rw [(hstep.isFresh hfound hnext).2.1]
      trivial
    | some record =>
      have hbefore := h.loads path record hfound
      cases hstep.stepped hfound hnext with
      | kept => exact hbefore.mono hle
      | sealed _ _ _ => exact hbefore.mono hle
      | moved hmove _ => exact hmove.numbered h hnext
  · rcases hstep.mem_handles hmem with hold | ⟨request, outcome, rfl, hpending, -⟩ |
      ⟨specifier, referrer, rfl, -, hcount⟩
    · exact (h.handles handle hold).imp fun _ hrequest => hrequest.mono hle
    · exact (h.handles _ hpending).imp fun _ hrequest => hrequest.mono hle
    · rw [hcount]
      exact ⟨_, (request_numbered session specifier referrer).2⟩

/-- **Every error has been counted.** -/
theorem numbered_of_start (h : Steps allowed (start config host closed) session) :
    Numbered session :=
  h.preserves (fun _ _ hstep hnumbered => hnumbered.step hstep)
    ⟨fun _ _ hfound => absurd hfound (by simp [start, find?]),
      fun _ hmem => absurd hmem List.not_mem_nil⟩

/-! ## Where an error was before -/

/-- No load ends with a call to the host. -/
theorem Calls.not_settled {call : HostCall} {task : Task} (h : Calls session record call task)
    (outcome : Outcome) : task ≠ .settled outcome := by
  cases h <;> simp

/-- A load that has failed did so before, or takes over the error of a request, its own included,
or raises a new one. -/
theorem Step.failed_cases (hstep : Step allowed session after) (hnumbered : Numbered session)
    (hended : after.outcomeOf (.load path) = some (.error failure)) :
    (∃ request target, request.Numbered session.failures target ∧
      session.outcomeOf request = some (.error failure)) ∨
      ∃ record, session.find? path = some record ∧ Raises session record failure.error := by
  obtain ⟨next, hnext, htask⟩ := outcomeOf_load_eq_some.mp hended
  cases hfound : session.find? path with
  | none =>
    have hfresh := hstep.isFresh hfound hnext
    exact absurd (hfresh.2.1.symm.trans htask) (by simp)
  | some record =>
    have hholds := hnumbered.loads path record hfound
    have hbefore : record.task = .settled (.error failure) →
        ∃ request target, request.Numbered session.failures target ∧
          session.outcomeOf request = some (.error failure) :=
      fun hold => ⟨.load path, path, trivial, outcomeOf_load_eq_some.mpr ⟨record, hfound, hold⟩⟩
    cases hstep.stepped hfound hnext with
    | kept => exact Or.inl (hbefore htask)
    | sealed _ _ _ => exact Or.inl (hbefore htask)
    | moved _ hmoved =>
      cases hmoved with
      | call hcalls => exact absurd htask (hcalls.not_settled _)
      | abandon hlinking hmem hwaiting hfailed =>
        obtain rfl := Except.error.inj (Task.settled.inj htask)
        rw [hlinking] at hholds
        exact Or.inl ⟨_, _, hholds _ hmem _ hwaiting, hfailed⟩
      | inherit hfollowing hfailed =>
        obtain rfl := Except.error.inj (Task.settled.inj htask)
        rw [hfollowing] at hholds
        obtain ⟨target, hrequest⟩ := hholds
        exact Or.inl ⟨_, target, hrequest, hfailed⟩
      | raise hraises =>
        obtain rfl := Except.error.inj (Task.settled.inj htask)
        exact Or.inr ⟨record, rfl, hraises⟩
      | fill hcustom _ _ _ => exact absurd (hcustom.symm.trans htask) (by simp)
      | _ => exact absurd htask (by simp)

/-! ## Blame -/

/-- The load of the module that an error names has ended with this very error. -/
def Blames (session : Session) : Prop :=
  ∀ path failure blamed, session.outcomeOf (.load path) = some (.error failure) →
    failure.error.module? = some blamed → session.outcomeOf (.load blamed) = some (.error failure)

/-- A load that fails by itself takes the blame. -/
theorem Raises.module? {error : LoadError} {blamed : String} (h : Raises session record error)
    (hblamed : error.module? = some blamed) : blamed = record.path := by
  cases h with
  | @custom _ failure _ _ _ _ =>
    cases failure with
    | invalidComponent => exact (Option.some.inj hblamed).symm
    | host message => exact absurd hblamed (by simp [CustomFailure.error, LoadError.module?])
  | refused _ _ => exact absurd hblamed (by simp [LoadError.module?])
  | missing _ _ _ => exact absurd hblamed (by simp [LoadError.module?])
  | _ => exact (Option.some.inj hblamed).symm

/-- A request that has failed with an error that names a module is answered by a load. -/
theorem Blames.of_request (h : Blames session) {count : Nat} {blamed : String}
    (hrequest : request.Numbered count target)
    (hfailed : session.outcomeOf request = some (.error failure))
    (hblamed : failure.error.module? = some blamed) :
    session.outcomeOf (.load blamed) = some (.error failure) := by
  cases request with
  | refused refusal =>
    obtain rfl := Except.error.inj (Option.some.inj hfailed)
    rw [hrequest.2] at hblamed
    exact absurd hblamed (by simp [LoadError.module?])
  | load other => exact h other failure blamed hfailed hblamed

theorem Blames.step (h : Blames session) (hnumbered : Numbered session)
    (hstep : Step allowed session after) : Blames after := by
  intro path failure blamed hended hblamed
  rcases hstep.failed_cases hnumbered hended with ⟨request, target, hrequest, hfailed⟩ |
    ⟨record, hfound, hraises⟩
  · exact hstep.outcomeOf (h.of_request hrequest hfailed hblamed)
  · obtain rfl := (hraises.module? hblamed).trans (path_of_find? hfound)
    exact hended

/-- **An error that names a module is the one that the load of this module has ended with.** -/
theorem blames_of_start (h : Steps allowed (start config host closed) session) :
    Blames session := by
  induction h with
  | refl => exact fun _ _ _ hended => absurd hended (by simp [start, outcomeOf, find?])
  | tail hsteps hlast ih => exact ih.step (numbered_of_start hsteps) hlast

end Session

end ScriptLink
