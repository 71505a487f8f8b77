import ScriptLink.Proofs.Attachment
import ScriptLink.Proofs.Session.OwnCalls
import ScriptLink.Proofs.Session.Sealing

/-!
# How a component is loaded

The load of a component fetches a text, hands the script to the host, appends the styles one after
the other, and puts the template on what the script has exported. It can stop at every gate and fail
at every call, and other loads go on in between.

* **`ComponentRun`** — what the load is about once its script is handed over: `plan`, the calls if
  none fails, and `result`, how the load ends. **`ComponentRun.ReadFrom`** — the moment at which the
  load got the text of the component.
* **`ComponentRun.AtCall`** — the load stands at one of these calls. `Move.of_atCall`: whatever the
  session does, there is one thing that the load can do next.
* **`ComponentRun.Course`** — how far the load is, by the calls that it has begun. A move of the
  load keeps it on its course (`ComponentRun.Course.move`).
* **`Unrun`** — how far a load is that has not handed its script over.
* **`onCourse_of_begun`** — every component load of every session is at one of the two.
-/

namespace ScriptLink.Session

/-- A component whose script is handed to the host. -/
structure ComponentRun where
  wrapper : Wrapper
  dependencies : List (String × Content)
  component : Component

namespace ComponentRun

/-- The calls of the load, in order, if none fails. -/
def plan (run : ComponentRun) (path : String) : List HostCall :=
  .fetch path :: .execute run.wrapper run.dependencies :: run.component.styles.map .style

/-- How the load ends after its last call; `free` is whether its slot is still empty. -/
def ending (run : ComponentRun) (exports : Content) (path : String) (free : Bool) :
    Except LoadError Content :=
  match Component.withTemplate? run.component.template exports with
  | none => .error (.invalidComponent path)
  | some content => if free then .ok content else .error (.duplicateExport path)

/-- How the load ends: with the message of the first call that the host refuses, and else with the
exports of the script, with the template on them. -/
def result (run : ComponentRun) (host : Host) (path : String) (free : Bool) :
    Except LoadError Content :=
  match (run.plan path).findSome? host.refusal? with
  | some message => .error (.host message)
  | none => run.ending (host.execute run.wrapper) path free

/-- The load got its text in `requested`, where it stood behind the call for it. What is run is the
component of that text, and the script that is handed over is the rewritten script of it. -/
structure ReadAt (run : ComponentRun) (allowed : Action → Prop) (base requested session : Session)
    (path text : String) (linking : Linking) : Prop where
  reached : Steps allowed base requested
  fetching : ∃ record, requested.find? path = some record ∧ record.task = .fetching
  fetched : requested.host.fetch path = .ok text
  component : run.component = Component.ofMarkup text
  script : transform base.config.exportsName run.component.script = .ok linking.script
  wrapper : run.wrapper = linking.wrapper base.config path
  onward : Steps allowed requested session
  since : Steps allowed
    (requested.linked path linking.script linking.requests (some run.component)) session

/-- The load got its text at some moment. -/
def ReadFrom (run : ComponentRun) (allowed : Action → Prop) (base session : Session)
    (path : String) : Prop :=
  ∃ requested text linking, run.ReadAt allowed base requested session path text linking

theorem ReadFrom.step {run : ComponentRun} {allowed : Action → Prop} {base session after : Session}
    {path : String} (h : run.ReadFrom allowed base session path)
    (hstep : Step allowed session after) : run.ReadFrom allowed base after path := by
  obtain ⟨requested, text, linking, hread⟩ := h
  exact ⟨requested, text, linking,
    { hread with onward := hread.onward.tail hstep, since := hread.since.tail hstep }⟩

/-- The load stands at `call`, with these styles to be appended behind; its script, once it has been
run, has exported `exports`. -/
inductive AtCall (run : ComponentRun) (exports : Content) : Task → HostCall → List String → Prop
    where
  | executing : AtCall run exports
      (.executing run.wrapper run.dependencies (some run.component))
      (.execute run.wrapper run.dependencies) run.component.styles
  | styling {css : String} {later : List String} : AtCall run exports
      (.styling css later exports run.component.template) (.style css) later

/-- How far the load is, by the calls that it has begun. -/
inductive Course (run : ComponentRun) (host : Host) (path : String) :
    List HostCall → Record → Prop where
  /-- it stands at the last of them -/
  | calling {passed : List HostCall} {call : HostCall} {later : List String} {record : Record}
      (hat : run.AtCall (host.execute run.wrapper) record.task call later)
      (hplan : run.plan path = passed ++ call :: later.map .style)
      (hpassed : ∀ earlier ∈ passed, host.refusal? earlier = none) :
      Course run host path (passed ++ [call]) record
  /-- the host has refused the last of them -/
  | refused {passed later : List HostCall} {call : HostCall} {message : String} {id : Nat}
      {record : Record} (hplan : run.plan path = passed ++ call :: later)
      (hpassed : ∀ earlier ∈ passed, host.refusal? earlier = none)
      (hrefused : host.refusal? call = some message)
      (htask : record.task = .settled (.error ⟨id, .host message⟩)) :
      Course run host path (passed ++ [call]) record
  /-- it has begun them all, and none was refused -/
  | finished {outcome : Outcome} {free : Bool} {record : Record}
      (hpassed : ∀ call ∈ run.plan path, host.refusal? call = none)
      (htask : record.task = .settled outcome)
      (hending : outcome.mapError Failure.error =
        run.ending (host.execute run.wrapper) path free)
      (hfree : free = false → record.slot ≠ .empty) :
      Course run host path (run.plan path) record

end ComponentRun

open ComponentRun

variable {allowed : Action → Prop} {config : Config} {host : Host} {closed : String → Bool}
  {session after : Session} {path : String} {record next : Record} {run : ComponentRun}
  {call : HostCall} {calls : List HostCall} {exports content : Content} {later : List String}
  {template : Option String}

/-! ## The end of a load -/

theorem resolve_of_empty (hfound : session.find? path = some record)
    (hslot : record.slot = .empty) : session.resolve path content =
      (session.setSlot path (.sealed content)).setTask path (.settled (.ok content)) := by
  unfold resolve
  rw [hfound, Option.bind_some, hslot]
  rfl

theorem resolve_of_ne_empty (hfound : session.find? path = some record)
    (hslot : record.slot ≠ .empty) :
    session.resolve path content = session.rejectWith path (.duplicateExport path) := by
  unfold resolve
  rw [hfound, Option.bind_some]
  cases hsealed : record.slot with
  | empty => exact absurd hsealed hslot
  | sealed old => rfl

/-- What the end of a component load is, by what becomes of the exports. -/
theorem finish_of_some (hattach : Component.withTemplate? template exports = some content) :
    session.finish path exports template = session.resolve path content := by
  cases template with
  | none =>
    obtain rfl := Option.some.inj hattach
    rfl
  | some template =>
    have htemplate : Component.attach? template exports = some content := hattach
    simp only [finish, htemplate]

theorem finish_of_none (hattach : Component.withTemplate? template exports = none) :
    session.finish path exports template = session.rejectWith path (.invalidComponent path) := by
  cases template with
  | none => exact absurd hattach (by simp [Component.withTemplate?])
  | some template =>
    have htemplate : Component.attach? template exports = none := hattach
    simp only [finish, htemplate]

theorem finish_log : (session.finish path exports template).log = session.log := by
  have hresolve : ∀ content, (session.resolve path content).log = session.log := by
    intro content
    unfold resolve
    split <;> rfl
  cases hattach : Component.withTemplate? template exports with
  | none => rw [finish_of_none hattach]; rfl
  | some content => rw [finish_of_some hattach, hresolve]

/-- After its last call, a component load has ended as it has to. -/
theorem find?_finish (hfound : session.find? path = some record) :
    ∃ next outcome, (session.finish path exports run.component.template).find? path = some next ∧
      next.task = .settled outcome ∧
      outcome.mapError Failure.error = run.ending exports path (!record.slot.isSealed) ∧
      ((!record.slot.isSealed) = false → next.slot ≠ .empty) := by
  unfold ComponentRun.ending
  cases hattach : Component.withTemplate? run.component.template exports with
  | none =>
    rw [finish_of_none hattach]
    refine ⟨_, _, find?_raised hfound, rfl, rfl, fun hsealed hempty => ?_⟩
    have hslot : record.slot = .empty := hempty
    rw [hslot] at hsealed
    exact absurd hsealed (by decide)
  | some content =>
    rw [finish_of_some hattach]
    cases hslot : record.slot with
    | empty =>
      rw [resolve_of_empty hfound hslot]
      exact ⟨_, _, find?_resolved hfound, rfl, rfl, fun _ => by simp⟩
    | sealed old =>
      rw [resolve_of_ne_empty hfound (by rw [hslot]; simp)]
      exact ⟨_, _, find?_raised hfound, rfl, rfl, fun _ => by simp [hslot]⟩

/-! ## One move -/

theorem Move.open_of_found (hmove : Move path session after)
    (hfound : session.find? path = some record) : record.task.outcome? = none := by
  obtain ⟨moving, -, hmoving, hopen, -⟩ := hmove.reworked.own
  obtain rfl := Option.some.inj (hfound.symm.trans hmoving)
  exact hopen

/-- A load that yields its content has nothing to append any more. -/
theorem Yields.of_atCall (h : Yields session record content)
    (hat : run.AtCall (session.host.execute run.wrapper) record.task call later) :
    session.pass? call = some (.ok ()) ∧ later = [] ∧
      Component.withTemplate? run.component.template (session.host.execute run.wrapper) =
        some content := by
  cases h with
  | component htask hpass hstyles hattach =>
    rw [htask] at hat
    cases hat
    exact ⟨hpass, hstyles, hattach⟩
  | styled htask hpass hattach =>
    rw [htask] at hat
    cases hat
    exact ⟨hpass, rfl, hattach⟩
  | echo htask _ => rw [htask] at hat; cases hat
  | script htask _ => rw [htask] at hat; cases hat
  | stylesheet htask _ => rw [htask] at hat; cases hat
  | custom htask _ _ _ => rw [htask] at hat; cases hat
  | following htask _ => rw [htask] at hat; cases hat

/-- A load that begins a call appends the next style. -/
theorem Calls.of_atCall {made : HostCall} {begun : Task} (h : Calls session record made begun)
    (hat : run.AtCall (session.host.execute run.wrapper) record.task call later) :
    session.pass? call = some (.ok ()) ∧ ∃ css rest, later = css :: rest ∧ made = .style css ∧
      begun = .styling css rest (session.host.execute run.wrapper) run.component.template := by
  cases h with
  | firstStyle htask hpass hstyles =>
    rw [htask] at hat
    cases hat
    exact ⟨hpass, _, _, hstyles, rfl, rfl⟩
  | nextStyle htask hpass =>
    rw [htask] at hat
    cases hat
    exact ⟨hpass, _, _, rfl, rfl, rfl⟩
  | fetch htask _ => rw [htask] at hat; cases hat
  | stylesheet htask _ => rw [htask] at hat; cases hat
  | custom htask _ => rw [htask] at hat; cases hat

theorem ComponentRun.AtCall.call?_eq {task : Task} (h : run.AtCall exports task call later)
    (path : String) : task.call? path = some call := by
  cases h <;> rfl

/-- A load that raises an error was refused, or had all its styles appended. -/
theorem Raises.of_atCall {error : LoadError} (h : Raises session record error)
    (hat : run.AtCall (session.host.execute run.wrapper) record.task call later) :
    (∃ message, session.pass? call = some (.error message) ∧ error = .host message) ∨
    session.pass? call = some (.ok ()) ∧ later = [] ∧
      ((Component.withTemplate? run.component.template (session.host.execute run.wrapper) = none ∧
        error = .invalidComponent record.path) ∨
      ∃ content, Component.withTemplate? run.component.template
        (session.host.execute run.wrapper) = some content ∧ record.slot ≠ .empty ∧
        error = .duplicateExport record.path) := by
  cases h with
  | refused hcall hpass =>
    obtain rfl := Option.some.inj ((hat.call?_eq record.path).symm.trans hcall)
    exact Or.inl ⟨_, hpass, rfl⟩
  | duplicate hyields hslot =>
    obtain ⟨hpass, hlater, hattach⟩ := hyields.of_atCall hat
    exact Or.inr ⟨hpass, hlater, Or.inr ⟨_, hattach, hslot, rfl⟩⟩
  | bareComponent hother hpass hstyles hattach =>
    rw [hother] at hat
    cases hat
    exact Or.inr ⟨hpass, hstyles, Or.inl ⟨hattach, rfl⟩⟩
  | styledComponent hother hpass hattach =>
    rw [hother] at hat
    cases hat
    exact Or.inr ⟨hpass, rfl, Or.inl ⟨hattach, rfl⟩⟩
  | missing hother _ _ => rw [hother] at hat; cases hat
  | transpile hother _ _ _ => rw [hother] at hat; cases hat
  | custom hother _ _ _ => rw [hother] at hat; cases hat
  | customDuplicate hother _ _ _ => rw [hother] at hat; cases hat

/-- **A load at a call has one way to go on**: if its gate lets the call fail, the load fails with
the message, and if it lets the call go on, the next style is appended or the load is finished. -/
theorem Move.of_atCall (hmove : Move path session after)
    (hfound : session.find? path = some record)
    (hat : run.AtCall (session.host.execute run.wrapper) record.task call later) :
    (∃ message, session.pass? call = some (.error message) ∧
      after = session.rejectWith path (.host message)) ∨
    session.pass? call = some (.ok ()) ∧ after = session.styleNext path later
      (session.host.execute run.wrapper) run.component.template := by
  have hsame : ∀ {other : Record}, session.find? path = some other → record = other :=
    fun hother => Option.some.inj (hfound.symm.trans hother)
  have hpath := path_of_find? hfound
  -- the moves that begin at another task are none of this load
  have htasked : ∀ {other : Record} {task : Task}, session.find? path = some other →
      other.task = task →
      run.AtCall (session.host.execute run.wrapper) task call later := by
    intro other task hother htask
    rw [← htask, ← hsame hother]
    exact hat
  rcases hmove with hturn | hlook
  · cases hturn with
    | call hother hcalls =>
      obtain rfl := hsame hother
      obtain ⟨hpass, css, rest, rfl, rfl, rfl⟩ := hcalls.of_atCall hat
      exact Or.inr ⟨hpass, rfl⟩
    | resolve hother hyields hslot =>
      obtain rfl := hsame hother
      obtain ⟨hpass, rfl, hattach⟩ := hyields.of_atCall hat
      refine Or.inr ⟨hpass, ?_⟩
      rw [styleNext, finish_of_some hattach, resolve_of_empty hfound hslot]
    | raise hother hraises =>
      obtain rfl := hsame hother
      rcases hraises.of_atCall hat with ⟨message, hpass, rfl⟩ |
        ⟨hpass, rfl, ⟨hattach, rfl⟩ | ⟨content, hattach, hslot, rfl⟩⟩
      · exact Or.inl ⟨message, hpass, rfl⟩
      · refine Or.inr ⟨hpass, ?_⟩
        rw [styleNext, finish_of_none hattach, hpath]
      · refine Or.inr ⟨hpass, ?_⟩
        rw [styleNext, finish_of_some hattach, resolve_of_ne_empty hfound hslot, hpath]
    | link hother htask _ _ _ => cases htasked hother htask
    | execute hother htask _ => cases htasked hother htask
    | abandon hother htask _ _ _ => cases htasked hother htask
    | inherit hother htask _ => cases htasked hother htask
    | fill hother htask _ _ _ => cases htasked hother htask
    | follow hother htask _ _ => cases htasked hother htask
  · cases hlook with
    | note hother htask _ => cases htasked hother htask

/-- **One move of a load keeps its course.** -/
theorem ComponentRun.Course.move (h : Course run host path calls record)
    (hanswers : SameAnswers host session.host) (hfound : session.find? path = some record)
    (hmove : Move path session after) (hnext : after.find? path = some next) :
    Course run host path (calls ++ after.log.toList.drop session.log.size) next := by
  cases h with
  | @calling passed call later _ hat hplan hpassed =>
    rw [← hanswers.execute] at hat
    rcases hmove.of_atCall hfound hat with ⟨message, hpass, rfl⟩ | ⟨hpass, rfl⟩
    · have hlog : (session.rejectWith path (.host message)).log = session.log := rfl
      obtain rfl := Option.some.inj ((find?_raised hfound).symm.trans hnext)
      rw [hlog, drop_self, List.append_nil]
      exact .refused hplan hpassed (hanswers.refusal call ▸ (pass?_eq_error_iff.mp hpass).2) rfl
    · have hall : ∀ earlier ∈ passed ++ [call], host.refusal? earlier = none := by
        intro earlier hmem
        rcases List.mem_append.mp hmem with hold | hnew
        · exact hpassed earlier hold
        · obtain rfl := List.mem_singleton.mp hnew
          exact hanswers.refusal earlier ▸ (pass?_eq_ok_iff.mp hpass).2
      rw [hanswers.execute] at hnext ⊢
      cases later with
      | nil =>
        have hplan : run.plan path = passed ++ [call] := hplan
        obtain ⟨ended, outcome, hended, htask, hending, hfree⟩ := find?_finish hfound
        obtain rfl := Option.some.inj (hended.symm.trans hnext)
        rw [styleNext, finish_log, drop_self, List.append_nil, ← hplan]
        exact .finished (hplan ▸ hall) htask hending hfree
      | cons css rest =>
        obtain rfl := Option.some.inj ((find?_called hfound).symm.trans hnext)
        have hlog : (session.styleNext path (css :: rest) (host.execute run.wrapper)
            run.component.template).log = session.log.push (.style css) := rfl
        rw [hlog, drop_push]
        refine .calling .styling ?_ hall
        rw [hplan, List.map_cons, List.append_assoc, List.singleton_append]
  -- a load that has ended does not move
  | refused _ _ _ htask =>
    exact absurd (hmove.open_of_found hfound) (by rw [htask]; simp [Task.outcome?])
  | finished _ htask _ _ =>
    exact absurd (hmove.open_of_found hfound) (by rw [htask]; simp [Task.outcome?])

/-- What others write into the slot does not touch the course. -/
theorem ComponentRun.Course.sealed (h : Course run host path calls record) (content : Content) :
    Course run host path calls { record with slot := .sealed content } := by
  cases h with
  | calling hat hplan hpassed => exact .calling hat hplan hpassed
  | refused hplan hpassed hrefused htask => exact .refused hplan hpassed hrefused htask
  | finished hpassed htask hending _ => exact .finished hpassed htask hending (by simp)

/-! ## Before the script is handed over -/

/-- How far a component is before its script is handed over: its text is all that it asks the host
for. -/
inductive Unrun (host : Host) (path : String) : List HostCall → Task → Prop where
  | untouched : Unrun host path [] .start
  | fetching : Unrun host path [.fetch path] .fetching
  | linking {linking : Linking} (hfetched : host.refusal? (.fetch path) = none) :
      Unrun host path [.fetch path] (.linking linking)
  | failed {failure : Failure} : Unrun host path [.fetch path] (.settled (.error failure))

theorem Unrun.prefix_fetch {task : Task} (h : Unrun host path calls task) :
    calls <+: [.fetch path] ∧ task.isPastRun = false := by
  cases h with
  | untouched => exact ⟨List.nil_prefix, rfl⟩
  | _ => exact ⟨List.prefix_rfl, rfl⟩

/-- A load that asks for its text and its dependencies yields nothing. -/
theorem Unrun.not_yields (h : Unrun host path calls record.task)
    (hloader : record.loader = .component) : ¬ Yields session record content := by
  intro hyields
  cases hyields with
  | echo _ hother => exact absurd (hloader.symm.trans hother) (by simp)
  | script htask _ => rw [htask] at h; cases h
  | component htask _ _ _ => rw [htask] at h; cases h
  | styled htask _ _ => rw [htask] at h; cases h
  | stylesheet htask _ => rw [htask] at h; cases h
  | custom htask _ _ _ => rw [htask] at h; cases h
  | following htask _ => rw [htask] at h; cases h

/-- The only call that such a load begins is the one for its text. -/
theorem Unrun.of_calls {task : Task} (h : Unrun host path calls record.task)
    (hloader : record.loader = .component) (hcalls : Calls session record call task) :
    calls = [] ∧ call = .fetch record.path ∧ task = .fetching := by
  cases hcalls with
  | fetch htask _ =>
    rw [htask] at h
    cases h
    exact ⟨rfl, rfl, rfl⟩
  | stylesheet _ hother => exact absurd (hloader.symm.trans hother) (by simp)
  | custom _ hother => exact absurd (hloader.symm.trans hother) (by simp)
  | firstStyle htask _ _ => rw [htask] at h; cases h
  | nextStyle htask _ => rw [htask] at h; cases h

/-- Such a load fails behind the call for its text. -/
theorem Unrun.of_raises {error : LoadError} (h : Unrun host path calls record.task)
    (hloader : record.loader = .component) (hraises : Raises session record error) :
    calls = [.fetch path] := by
  cases hraises with
  | refused hcall _ =>
    generalize record.task = task at h hcall
    cases h with
    | untouched => exact absurd hcall (by simp [Task.call?])
    | _ => rfl
  | duplicate hyields _ => exact absurd hyields (h.not_yields hloader)
  | missing htask _ _ => rw [htask] at h; cases h; rfl
  | transpile htask _ _ _ => rw [htask] at h; cases h; rfl
  | bareComponent htask _ _ _ => rw [htask] at h; cases h
  | styledComponent htask _ _ => rw [htask] at h; cases h
  | custom htask _ _ _ => rw [htask] at h; cases h
  | customDuplicate htask _ _ _ => rw [htask] at h; cases h

/-- **The course begins with the hand-over**: what is run is the component that the module has been
about since it asked for its dependencies. -/
theorem course_of_execute {linking : Linking}
    (hsteps : Steps allowed (start config host closed) session)
    (hfound : session.find? path = some record) (hloader : record.loader = .component)
    (htask : record.task = .linking linking) (hfetched : host.refusal? (.fetch path) = none)
    (hstep : Step allowed session (session.execute path linking)) :
    ∃ run : ComponentRun,
      run.ReadFrom allowed (start config host closed) (session.execute path linking) path ∧
      Course run host path
        ([.fetch path] ++ (session.execute path linking).log.toList.drop session.log.size)
        { record with
          task := .executing (linking.wrapper session.config path)
            (Linking.table session.exports? linking.dependencies) linking.component } := by
  obtain ⟨requested, hasked⟩ := asked_of_start hsteps path record hfound linking htask
  obtain ⟨text, hfetch, hscript, -, hcomponent⟩ := hasked.text
  rw [hloader] at hscript hcomponent
  rw [hasked.reached.config] at hscript
  have hlog : (session.execute path linking).log = session.log.push (.execute
      (linking.wrapper session.config path)
      (Linking.table session.exports? linking.dependencies)) := rfl
  refine ⟨⟨linking.wrapper session.config path,
    Linking.table session.exports? linking.dependencies, Component.ofMarkup text⟩,
    ⟨requested, text, linking, ?_⟩, ?_⟩
  · obtain ⟨fetching, hfetching, hstage, -⟩ := hasked.fetching
    have hsince := hasked.since
    rw [hcomponent] at hsince
    exact ⟨hasked.reached, ⟨fetching, hfetching, hstage⟩, hfetch, rfl, hscript,
      by rw [hsteps.config], hasked.onward.tail hstep, hsince.tail hstep⟩
  · rw [hlog, drop_push, hcomponent]
    refine .calling .executing rfl fun earlier hmem => ?_
    obtain rfl := List.mem_singleton.mp hmem
    exact hfetched

/-- **One move of a component** before its script is handed over, or the hand-over. -/
theorem Unrun.move (h : Unrun host path calls record.task) (hloader : record.loader = .component)
    (hsteps : Steps allowed (start config host closed) session)
    (hfound : session.find? path = some record) (hmove : Move path session after)
    (hnext : after.find? path = some next) :
    Unrun host path (calls ++ after.log.toList.drop session.log.size) next.task ∨
    ∃ run : ComponentRun, run.ReadFrom allowed (start config host closed) after path ∧
      Course run host path (calls ++ after.log.toList.drop session.log.size) next := by
  have hsame : ∀ {other : Record}, session.find? path = some other → record = other :=
    fun hother => Option.some.inj (hfound.symm.trans hother)
  have hstep : Step allowed session after := .move hmove
  -- a step that leaves the log alone begins no call
  have hquiet : after.log = session.log →
      calls ++ after.log.toList.drop session.log.size = calls := by
    intro hlog
    rw [hlog, drop_self, List.append_nil]
  have htasked : ∀ {other : Record} {task : Task}, session.find? path = some other →
      other.task = task → Unrun host path calls task := by
    intro other task hother htask
    rw [← htask, ← hsame hother]
    exact h
  rcases hmove with hturn | hlook
  · cases hturn with
    | call hother hcalls =>
      obtain rfl := hsame hother
      obtain ⟨rfl, rfl, rfl⟩ := h.of_calls hloader hcalls
      obtain rfl := Option.some.inj ((find?_called hfound).symm.trans hnext)
      rw [path_of_find? hfound]
      exact Or.inl (drop_push session.log _ ▸ .fetching)
    | link hother htask hpass _ _ =>
      obtain rfl := Option.some.inj ((find?_linked hother).symm.trans hnext)
      cases htasked hother htask
      rw [hquiet (grown_dependAll path _ session).log]
      refine Or.inl (.linking ?_)
      exact hsteps.sameAnswers.refusal _ ▸ (pass?_eq_ok_iff.mp hpass).2
    | execute hother htask _ =>
      obtain rfl := hsame hother
      obtain rfl := Option.some.inj ((find?_executed hfound).symm.trans hnext)
      cases htasked hother htask with
      | linking hfetched =>
        exact Or.inr (course_of_execute hsteps hfound hloader htask hfetched hstep)
    | abandon hother htask _ _ _ =>
      obtain rfl := Option.some.inj ((find?_abandoned hother).symm.trans hnext)
      cases htasked hother htask
      rw [hquiet rfl]
      exact Or.inl .failed
    | resolve hother hyields _ =>
      obtain rfl := hsame hother
      exact absurd hyields (h.not_yields hloader)
    | raise hother hraises =>
      obtain rfl := hsame hother
      obtain rfl := Option.some.inj ((find?_raised hfound).symm.trans hnext)
      obtain rfl := h.of_raises hloader hraises
      rw [hquiet rfl]
      exact Or.inl .failed
    | inherit hother htask _ => cases htasked hother htask
    | fill hother htask _ _ _ => cases htasked hother htask
    | follow hother htask _ _ => cases htasked hother htask
  · cases hlook with
    | note hother htask _ =>
      obtain rfl := Option.some.inj ((find?_setTask_self hother).symm.trans hnext)
      cases htasked hother htask with
      | linking hfetched =>
        rw [hquiet rfl]
        exact Or.inl (.linking hfetched)

/-! ## In every session -/

/-- A component load has not been handed over, or it is about a component that the host had, and has
begun the calls of its plan up to where it stands. -/
def OnCourse (allowed : Action → Prop) (base : Session) (path : String) (session : Session)
    (calls : List HostCall) (record : Record) : Prop :=
  Unrun base.host path calls record.task ∨ ∃ run : ComponentRun,
    run.ReadFrom allowed base session path ∧ Course run base.host path calls record

/-- **Every component load is on its course.** -/
theorem onCourse_of_begun (h : Begun allowed (start config host closed) path calls session)
    (hfound : session.find? path = some record) (hloader : record.loader = .component) :
    OnCourse allowed (start config host closed) path session calls record := by
  refine (@Begun.keeps _ _ _ _ _ (fun session calls record => record.loader = .component →
    OnCourse allowed (start config host closed) path session calls record) h ?_ ?_ ?_ ?_ ?_).2
      record hfound hloader
  · intro calls session after record next hbegun hfound hmove hnext hcourse hloader
    rw [(hmove.moved hfound hnext).loader] at hloader
    rcases hcourse hloader with hunrun | ⟨run, hread, hrun⟩
    · exact hunrun.move hloader hbegun.steps hfound hmove hnext
    · exact Or.inr ⟨run, hread.step (.move hmove),
        hrun.move hbegun.steps.sameAnswers hfound hmove hnext⟩
  · intro calls session after record hidles hcourse hloader
    exact (hcourse hloader).imp_right fun ⟨run, hread, hrun⟩ =>
      ⟨run, hread.step hidles.step, hrun⟩
  · intro calls session record content _ _ hcourse hloader
    exact (hcourse hloader).imp_right fun ⟨run, hread, hrun⟩ => ⟨run, hread, hrun.sealed content⟩
  · exact fun _ _ record hfresh _ => Or.inl (hfresh.2.1 ▸ .untouched)
  · exact fun record habsurd => absurd habsurd (by simp [start, find?])

/-! ## What the course tells -/

/-- The calls that have begun are the first ones of the plan. -/
theorem ComponentRun.Course.isPrefix (h : Course run host path calls record) :
    calls <+: run.plan path := by
  cases h with
  | @calling passed call later _ _ hplan _ =>
    exact ⟨later.map .style, by rw [hplan, List.append_assoc, List.singleton_append]⟩
  | @refused passed later call _ _ _ hplan _ _ _ =>
    exact ⟨later, by rw [hplan, List.append_assoc, List.singleton_append]⟩
  | finished _ _ _ _ => exact List.prefix_rfl

/-- **No call is begun behind one that was refused.** -/
theorem ComponentRun.Course.passed (h : Course run host path calls record) :
    ∀ call ∈ calls.dropLast, host.refusal? call = none := by
  cases h with
  | calling _ _ hpassed =>
    rw [List.dropLast_concat]
    exact hpassed
  | refused _ hpassed _ _ =>
    rw [List.dropLast_concat]
    exact hpassed
  | finished hpassed _ _ _ => exact fun call hmem => hpassed call (List.dropLast_subset _ hmem)

/-- **How a load ends that has begun these calls**: it has begun all calls of the plan, or the last
of them was refused. -/
theorem ComponentRun.Course.settled {outcome : Outcome} (h : Course run host path calls record)
    (htask : record.task = .settled outcome) :
    (calls = run.plan path ∨ ∃ call ∈ calls.getLast?, (host.refusal? call).isSome = true) ∧
    ∃ free : Bool, (free = false → record.slot ≠ .empty) ∧
      outcome.mapError Failure.error = run.result host path free := by
  cases h with
  | calling hat _ _ =>
    rw [htask] at hat
    cases hat
  | @refused passed later call message id _ hplan hpassed hrefused hsettled =>
    obtain rfl := Task.settled.inj (hsettled.symm.trans htask)
    refine ⟨Or.inr ⟨call, by simp, by rw [hrefused]; rfl⟩, true, by simp, ?_⟩
    have hfirst : (run.plan path).findSome? host.refusal? = some message := by
      rw [hplan, List.findSome?_append, List.findSome?_eq_none_iff.mpr hpassed, Option.none_or,
        List.findSome?_cons_of_isSome (by rw [hrefused]; rfl), hrefused]
    rw [ComponentRun.result, hfirst]
    rfl
  | @finished ended free _ hpassed hsettled hending hfree =>
    obtain rfl := Task.settled.inj (hsettled.symm.trans htask)
    refine ⟨Or.inl rfl, free, hfree, ?_⟩
    rw [ComponentRun.result, List.findSome?_eq_none_iff.mpr hpassed]
    exact hending

end ScriptLink.Session
