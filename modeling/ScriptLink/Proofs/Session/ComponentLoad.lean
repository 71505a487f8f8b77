import Mathlib.Algebra.Order.BigOperators.Group.List
import Mathlib.Algebra.Order.Group.Nat
import ScriptLink.Proofs.Session.CallOrder
import ScriptLink.Proofs.Session.Work

/-!
# What comes of a component

A component load that has handed its script over is on its course (`onCourse_of_begun`). Here the
course is brought to its end, and the end is read off the component and the exports of its script.

* **`ComponentRun.Ended`** — what a load ends with, for each way it can go. `ended_of_result`: the
  end of every course is of this kind.
* **`Steps.weight_le`** — a session is never given more text than it has counted, so a component
  has fewer styles than a poll has steps.
* **`pollFor_atCall`** — once the gates that are left are open, polling brings a load to its end.
* **`component_load_is_ordered`** — the law.
-/

namespace ScriptLink.Session

open ComponentRun Component

variable {allowed : Action → Prop} {base session after : Session} {path : String}
  {record : Record} {run : ComponentRun} {host : Host} {config : Config} {closed : String → Bool}

/-! ## The ways to end -/

/-- What a component load ends with. `free` is whether its slot was left to it. -/
structure ComponentRun.Ended (run : ComponentRun) (host : Host) (path : String) (free : Prop)
    (outcome : Outcome) : Prop where
  /-- the first call that the host refuses ends the load -/
  refused : ∀ message, (run.plan path).findSome? host.refusal? = some message →
    ∃ id, outcome = .error ⟨id, .host message⟩
  /-- without a template the exports are the content -/
  plain : (∀ call ∈ run.plan path, host.refusal? call = none) → run.component.template = none →
    free → outcome = .ok (host.execute run.wrapper)
  /-- a template is refused by exports that cannot take it, and they are left as they are -/
  unattachable : (∀ call ∈ run.plan path, host.refusal? call = none) →
    ∀ template, run.component.template = some template →
      ((∃ id, outcome = .error ⟨id, .invalidComponent path⟩) ↔
        Unattachable (host.execute run.wrapper)) ∧
      (Unattachable (host.execute run.wrapper) →
        attachInPlace template (host.execute run.wrapper) = (host.execute run.wrapper, false))
  /-- and by no others, on which it is put without any other change -/
  attached : (∀ call ∈ run.plan path, host.refusal? call = none) →
    ∀ template, run.component.template = some template →
      ¬ Unattachable (host.execute run.wrapper) → free →
      ∃ content, outcome = .ok content ∧ Attached template (host.execute run.wrapper) content ∧
        attachInPlace template (host.execute run.wrapper) = (content, true)
  /-- a slot that someone else has taken is not written -/
  taken : ¬ free → ∀ content, outcome ≠ .ok content

theorem exists_of_mapError_eq_error {outcome : Outcome} {error : LoadError}
    (h : outcome.mapError Failure.error = .error error) : ∃ id, outcome = .error ⟨id, error⟩ := by
  cases outcome with
  | ok content => exact absurd h (by simp [Except.mapError])
  | error failure =>
    obtain rfl := Except.error.inj h
    exact ⟨failure.id, rfl⟩

theorem eq_ok_of_mapError_eq_ok {outcome : Outcome} {content : Content}
    (h : outcome.mapError Failure.error = .ok content) : outcome = .ok content := by
  cases outcome with
  | ok other => exact congrArg _ (Except.ok.inj h)
  | error failure => exact absurd h (by simp [Except.mapError])

theorem ComponentRun.ending_of_none {exports : Content} {free : Bool}
    (hattach : Component.withTemplate? run.component.template exports = none) :
    run.ending exports path free = .error (.invalidComponent path) := by
  unfold ending
  rw [hattach]

theorem ComponentRun.ending_of_some {exports content : Content} {free : Bool}
    (hattach : Component.withTemplate? run.component.template exports = some content) :
    run.ending exports path free =
      if free then .ok content else .error (.duplicateExport path) := by
  unfold ending
  rw [hattach]

/-- The result of a load whose calls have all passed. -/
theorem ComponentRun.result_of_passed {free : Bool}
    (hpassed : ∀ call ∈ run.plan path, host.refusal? call = none) :
    run.result host path free = run.ending (host.execute run.wrapper) path free := by
  unfold result
  rw [List.findSome?_eq_none_iff.mpr hpassed]

/-- A result is a content only if the slot was left to the load. -/
theorem ComponentRun.result_false_ne_ok (content : Content) :
    run.result host path false ≠ .ok content := by
  unfold result ending
  split
  · simp
  · split <;> simp

/-- Whether the slot is free makes a difference only to a load that would end well. -/
theorem ComponentRun.result_of_error {error : LoadError}
    (h : run.result host path true = .error error) :
    run.result host path false = .error error := by
  unfold result ending at *
  split at h
  · exact h
  · split at h
    · exact h
    · exact absurd h (by simp)

/-- **Every result is one of the ways to end.** -/
theorem ended_of_result {free : Bool} {outcome : Outcome}
    (h : outcome.mapError Failure.error = run.result host path free) :
    run.Ended host path (free = true) outcome := by
  have hending : (∀ call ∈ run.plan path, host.refusal? call = none) →
      outcome.mapError Failure.error = run.ending (host.execute run.wrapper) path free :=
    fun hpassed => h.trans (result_of_passed hpassed)
  -- what the exports make of a template is what the end makes of it
  have htaken : ∀ {template content : _}, run.component.template = some template →
      attach? template (host.execute run.wrapper) = some content →
      run.ending (host.execute run.wrapper) path free =
        if free then .ok content else .error (.duplicateExport path) := by
    intro template content htemplate hattach
    exact ending_of_some (by rw [htemplate]; exact hattach)
  refine ⟨fun message hrefused => ?_, fun hpassed hplain hfree => ?_,
    fun hpassed template htemplate => ⟨⟨fun ⟨id, hinvalid⟩ => ?_, fun hexports => ?_⟩, ?_⟩,
    fun hpassed template htemplate hexports hfree => ?_, fun hnot content hok => ?_⟩
  · unfold result at h
    rw [hrefused] at h
    exact exists_of_mapError_eq_error h
  · have hend := hending hpassed
    rw [ending_of_some (by rw [hplain]; rfl), if_pos hfree] at hend
    exact eq_ok_of_mapError_eq_ok hend
  · by_contra hexports
    obtain ⟨content, hattach⟩ := exists_attach?_eq_some template hexports
    have hend := hending hpassed
    rw [htaken htemplate hattach, hinvalid] at hend
    split at hend <;> exact absurd hend (by simp [Except.mapError])
  · have hend := hending hpassed
    rw [ending_of_none (by rw [htemplate]; exact attach?_of_unattachable hexports)] at hend
    exact exists_of_mapError_eq_error hend
  · intro hexports
    rw [attachInPlace_eq, attach?_of_unattachable hexports]
  · obtain ⟨content, hattach⟩ := exists_attach?_eq_some template hexports
    have hend := hending hpassed
    rw [htaken htemplate hattach, if_pos hfree] at hend
    refine ⟨content, eq_ok_of_mapError_eq_ok hend, attached_of_attach? hattach, ?_⟩
    rw [attachInPlace_eq, hattach]
  · obtain rfl := Bool.eq_false_iff.mpr hnot
    rw [hok] at h
    exact result_false_ne_ok content h.symm

/-! ## Texts are counted -/

theorem weight_write_le (host : Host) (name text : String) :
    (host.write name text).weight ≤ textWeight (name, text) + host.weight := by
  rw [weight_eq, weight_eq]
  show ((((name, text) :: host.texts.filter fun entry => entry.1 != name).map textWeight).sum) ≤ _
  have hrest := @sum_filter_le host.texts (fun entry => entry.1 != name) (fun _ => true)
    fun _ _ _ => rfl
  rw [List.filter_true] at hrest
  rw [List.map_cons, List.sum_cons]
  omega

/-- No action brings in more text than is counted for it. -/
theorem act_weight_le (action : Action) (hweight : session.host.weight ≤ session.demand) :
    session.demand ≤ (session.act action).demand ∧
      (session.act action).host.weight ≤ (session.act action).demand := by
  by_cases hwrite : ∃ name text, action = .write name text
  · obtain ⟨name, text, rfl⟩ := hwrite
    have hnew := weight_write_le session.host name text
    unfold textWeight at hnew
    dsimp only at hnew
    show session.demand ≤ session.demand + _ + _ + 1 ∧
      (session.host.write name text).weight ≤ session.demand + _ + _ + 1
    omega
  · rw [act_host fun name text heq => hwrite ⟨name, text, heq⟩]
    suffices hmore : session.demand ≤ (session.act action).demand from
      ⟨hmore, Nat.le_trans hweight hmore⟩
    cases action with
    | request specifier referrer =>
      show _ ≤ (session.request specifier _).1.demand + _ + _ + 1
      rw [(grown_request session specifier _).demand]
      omega
    | write name text => exact absurd ⟨name, text, rfl⟩ hwrite
    | register suffix loader =>
      rcases act_register_cases session suffix loader with heq | ⟨_, _, -, hdemand, heq⟩
      · exact Nat.le_of_eq (by rw [heq])
      · rw [heq]
        exact hdemand
    | sealSlot target content =>
      rcases act_sealSlot_cases session target content with heq | ⟨_, -, -, heq⟩
      · exact Nat.le_of_eq (by rw [heq])
      · rw [heq]
        exact Nat.le_refl _
    | openGate gate => exact Nat.le_refl _
    | closeGate gate => exact Nat.le_refl _

theorem Steps.weight_le (h : Steps allowed session after)
    (hweight : session.host.weight ≤ session.demand) :
    session.demand ≤ after.demand ∧ after.host.weight ≤ after.demand := by
  induction h with
  | refl => exact ⟨Nat.le_refl _, hweight⟩
  | tail _ hlast ih =>
    cases hlast with
    | move hmove =>
      rw [hmove.reworked.host, hmove.reworked.demand]
      exact ih
    | settle _ _ => exact ih
    | @act action _ =>
      have hact := act_weight_le action ih.2
      exact ⟨Nat.le_trans ih.1 hact.1, hact.2⟩

/-- A text is no longer than all texts together. -/
theorem length_le_weight {text : String} (h : host.fetch path = .ok text) :
    text.utf8ByteSize ≤ host.weight := by
  rw [weight_eq]
  calc text.utf8ByteSize ≤ textWeight (path, text) := by unfold textWeight; dsimp only; omega
    _ ≤ (host.texts.map textWeight).sum :=
      List.le_sum_of_mem (List.mem_map_of_mem (mem_texts_of_fetch h))

/-- **A poll has a step for every style of a component**, and three more. -/
theorem ComponentRun.ReadFrom.styles_lt_bound
    (h : run.ReadFrom allowed (start config host closed) session path) :
    run.component.styles.length + 3 ≤ session.bound := by
  obtain ⟨requested, text, linking, hread⟩ := h
  have hearlier := hread.reached.weight_le (Nat.le_refl host.weight)
  have hdemand := (hread.onward.weight_le hearlier.2).1
  have hstyles : run.component.styles.length ≤ text.utf8ByteSize := by
    rw [hread.component]
    exact @length_styles_le text .component _ rfl
  have hweight := length_le_weight hread.fetched
  calc run.component.styles.length + 3 ≤ session.demand + 8 := by omega
    _ ≤ (session.demand + 8) ^ 3 := Nat.le_self_pow (by decide) _
    _ = session.bound := rfl

/-! ## Polling -/

theorem pollFor_settled {count : Nat} {busy : List String} {outcome : Outcome}
    (hfound : session.find? path = some record) (htask : record.task = .settled outcome) :
    pollFor (count + 1) busy path session = (session, some outcome) := by
  unfold pollFor
  simp only [hfound, htask]

/-- **Polling takes a load at a call one step on**, by what its gate answers. -/
theorem ComponentRun.AtCall.advance {poll : String → Session → Session × Option Outcome}
    {call : HostCall} {later : List String}
    (hat : run.AtCall (session.host.execute run.wrapper) record.task call later) :
    session.advance poll record =
      match session.pass? call with
      | none => (session, false)
      | some (.error message) => (session.rejectWith record.path (.host message), true)
      | some (.ok ()) => (session.styleNext record.path later (session.host.execute run.wrapper)
          run.component.template, true) := by
  generalize htask : record.task = task at hat
  unfold Session.advance
  dsimp only
  cases hat with
  | executing => rw [htask]; rfl
  | styling => rw [htask]; rfl

/-- A load that has a step to take is polled on from there. -/
theorem pollFor_advance {count : Nat} {busy : List String}
    (hfound : session.find? path = some record) (hopen : record.task.outcome? = none)
    (hfree : path ∉ busy)
    (hadvance : session.advance (pollFor count (path :: busy)) record = (after, true)) :
    pollFor (count + 1) busy path session = pollFor count busy path after := by
  have hbusy : busy.contains path = false := by simpa using hfree
  rw [pollFor]
  simp only [hfound]
  split
  · next outcome htask => exact absurd hopen (by rw [htask]; simp [Task.outcome?])
  · simp only [hbusy, Bool.false_eq_true, ↓reduceIte, hadvance]

/-- **Polling brings a load at a call to its end** in two steps more than there are styles left, if
all the gates that it has before it are open. -/
theorem pollFor_atCall {count : Nat} {busy : List String} {call : HostCall} {later : List String}
    (hat : run.AtCall (session.host.execute run.wrapper) record.task call later)
    (hfound : session.find? path = some record) (hfree : path ∉ busy)
    (hopen : ∀ made ∈ call :: later.map .style, session.closed made.gate = false)
    (hcount : later.length + 2 ≤ count) :
    ∃ outcome, (pollFor count busy path session).2 = some outcome ∧
      outcome.mapError Failure.error =
        match (call :: later.map .style).findSome? session.host.refusal? with
        | some message => .error (.host message)
        | none => run.ending (session.host.execute run.wrapper) path (!record.slot.isSealed) := by
  have hpath := path_of_find? hfound
  have hnext := hopen call List.mem_cons_self
  -- the induction is on the steps of the poll, of which each call takes one
  induction count generalizing session record call later with
  | zero => exact absurd hcount (by omega)
  | succ count ih =>
    obtain ⟨fewer, rfl⟩ := Nat.exists_eq_add_of_le' (by omega : 1 ≤ count)
    have htask : record.task.outcome? = none := by
      generalize record.task = task at hat
      cases hat <;> rfl
    have hadvance := @ComponentRun.AtCall.advance _ _ _ (pollFor (fewer + 1) (path :: busy)) _ _ hat
    cases hrefused : session.host.refusal? call with
    | some message =>
      rw [pass?_eq_error_iff.mpr ⟨hnext, hrefused⟩, hpath] at hadvance
      rw [pollFor_advance hfound htask hfree hadvance, pollFor_settled (find?_raised hfound) rfl,
        List.findSome?_cons_of_isSome (by rw [hrefused]; rfl), hrefused]
      exact ⟨_, rfl, rfl⟩
    | none =>
      rw [pass?_eq_ok_iff.mpr ⟨hnext, hrefused⟩, hpath] at hadvance
      rw [pollFor_advance hfound htask hfree hadvance,
        List.findSome?_cons_of_isNone (by rw [hrefused]; rfl)]
      cases later with
      | nil =>
        obtain ⟨ended, outcome, hended, hsettled, hending, -⟩ :=
          @find?_finish session path record run (session.host.execute run.wrapper) hfound
        rw [styleNext, pollFor_settled hended hsettled]
        exact ⟨outcome, rfl, hending⟩
      | cons css rest =>
        have hstyled := @find?_called session path record (.style css) (.styling css rest
          (session.host.execute run.wrapper) run.component.template) hfound
        have hlater := fun made hmem => hopen made (List.mem_cons_of_mem _ hmem)
        obtain ⟨outcome, hpoll, hending⟩ := ih .styling hstyled hlater
          (Nat.le_of_succ_le_succ hcount) hpath (hlater _ List.mem_cons_self)
        exact ⟨outcome, hpoll, hending⟩

/-- What is left of a course when its load stands at a call. -/
theorem ComponentRun.Course.poll {calls : List HostCall} {allowed : Action → Prop}
    (h : Course run host path calls record)
    (hread : run.ReadFrom allowed (start config host closed) session path)
    (hanswers : SameAnswers host session.host) (hfound : session.find? path = some record)
    (htask : record.task.outcome? = none)
    (hopen : ∀ call ∈ (run.plan path).drop (calls.length - 1), session.closed call.gate = false) :
    ∃ outcome, (session.poll (.load path)).2 = some outcome ∧
      outcome.mapError Failure.error = run.result host path (!record.slot.isSealed) := by
  cases h with
  | @calling passed call later _ hat hplan hpassed =>
    have hleft : (run.plan path).drop ((passed ++ [call]).length - 1) =
        call :: later.map .style := by
      rw [hplan, List.length_append, List.length_singleton, Nat.add_sub_cancel, List.drop_left]
    have hcount : later.length + 2 ≤ session.bound := by
      have hlength := congrArg List.length hplan
      have hbound := hread.styles_lt_bound
      simp only [plan, List.length_cons, List.length_append, List.length_map] at hlength
      omega
    rw [← hanswers.execute] at hat
    rw [hleft] at hopen
    obtain ⟨outcome, hpoll, hend⟩ :=
      pollFor_atCall hat hfound (List.not_mem_nil : path ∉ []) hopen hcount
    refine ⟨outcome, hpoll, ?_⟩
    have hrefusal : session.host.refusal? = host.refusal? := funext hanswers.refusal
    rw [hrefusal, hanswers.execute] at hend
    unfold result
    rw [hplan, List.findSome?_append, List.findSome?_eq_none_iff.mpr hpassed, Option.none_or]
    exact hend
  | refused _ _ _ hsettled => exact absurd htask (by rw [hsettled]; simp [Task.outcome?])
  | finished _ hsettled _ _ => exact absurd htask (by rw [hsettled]; simp [Task.outcome?])

/-! ## The law -/

/-- No one but the load itself has written the slot of `path`. -/
def LeftFree (allowed : Action → Prop) (base session : Session) (path : String) : Prop :=
  ∀ content, ¬ SealedElsewhere allowed base session path content

/-- The slot of a load that has not ended is empty if it was left to the load. -/
theorem leftFree_iff (hsteps : Steps allowed (start config host closed) session)
    (hfound : session.find? path = some record)
    (hnot : ∀ content, record.task ≠ .settled (.ok content)) :
    (!record.slot.isSealed) = true ↔ LeftFree allowed (start config host closed) session path := by
  cases hslot : record.slot with
  | empty =>
    refine iff_of_true rfl fun content helsewhere => ?_
    have hsealed := (slot_eq_sealed_iff hsteps hfound).mpr (Or.inr helsewhere)
    exact absurd (hslot.symm.trans hsealed) (by simp)
  | sealed content =>
    refine iff_of_false (by simp [Slot.isSealed]) fun hfree => ?_
    exact ((slot_eq_sealed_iff hsteps hfound).mp hslot).elim (hnot content) (hfree content)

/-- **Every end of a component load is one of the ways to end.** -/
theorem ComponentRun.Course.ended {calls : List HostCall} {outcome : Outcome}
    (h : Course run host path calls record)
    (hsteps : Steps allowed (start config host closed) session)
    (hfound : session.find? path = some record) (htask : record.task = .settled outcome) :
    run.Ended host path (LeftFree allowed (start config host closed) session path) outcome := by
  obtain ⟨-, free, hslot, hend⟩ := h.settled htask
  cases outcome with
  | ok content =>
    -- the load has written its slot itself, so no one else has
    have hfree : free = true := by
      cases free with
      | true => rfl
      | false => exact absurd hend.symm (result_false_ne_ok content)
    have hleft : LeftFree allowed (start config host closed) session path := by
      intro other helsewhere
      exact helsewhere.holdsForeign.notEndedWell content
        (outcomeOf_load_eq_some.mpr ⟨record, hfound, htask⟩)
    rw [← propext (iff_of_true hfree hleft)]
    exact ended_of_result hend
  | error failure =>
    have hnot : ∀ content, record.task ≠ .settled (.ok content) := by simp [htask]
    rw [← propext (leftFree_iff hsteps hfound hnot)]
    refine ended_of_result (hend.trans ?_)
    cases hsealed : record.slot.isSealed with
    | false =>
      cases free with
      | true => rfl
      | false =>
        cases hcontent : record.slot with
        | empty => exact absurd hcontent (hslot rfl)
        | sealed content => exact absurd hsealed (by rw [hcontent]; simp [Slot.isSealed])
    | true =>
      cases free with
      | true => exact hend.symm.trans (result_of_error hend.symm).symm
      | false => rfl

/-- **A component load is ordered.** Take any commands with any loaders, and in the session after
them any module with the loader of components. The calls that its load has begun are its own ones
among the calls of the log, and they do not overlap: each one was begun behind a moment at which the
one before it was the last, its gate was open, and the load went on from there.

Either the load has begun no call but the one for its text, and not been run; or it is about a
component that the host had as the text of the module. Then it has begun, in this order, the call
for the text, the one that runs the script, and one for each style in the order of the text, up to
some call, and none before the last of them was refused. While the gate of the last one is closed,
the load begins nothing more and does not end, whatever else is done.

The end of such a load, if there is one, comes after the last call of all or after one that was
refused, and is one of the ways to end; and there is an end as soon as the load is polled with its
gates open. In no case does a load that fails leave a content in the slot: what is there has been
written by someone else. -/
theorem component_load_is_ordered (config : Config) (host : Host) (closed : String → Bool)
    (commands : List Command) :
    let base := start config host closed
    let session := base.performAll commands
    ∀ path record, session.find? path = some record → record.loader = .component →
      (∃ calls, Begun (TakenBy commands) base path calls session) ∧
      (∀ failure content, record.task = .settled (.error failure) →
        record.slot = .sealed content →
        SealedElsewhere (TakenBy commands) base session path content) ∧
      ∀ calls, Begun (TakenBy commands) base path calls session →
        calls.Sublist session.log.toList ∧ InTurn (TakenBy commands) base session path calls ∧
        ((calls <+: [.fetch path] ∧ record.task.isPastRun = false) ∨
          ∃ run : ComponentRun, run.ReadFrom (TakenBy commands) base session path ∧
            calls <+: run.plan path ∧
            (∀ call ∈ calls.dropLast, host.refusal? call = none) ∧
            (∀ call ∈ calls.getLast?, session.closed call.gate = true →
              session.IsHeld path record.task call.gate) ∧
            (∀ outcome, record.task = .settled outcome →
              (calls = run.plan path ∨
                ∃ call ∈ calls.getLast?, (host.refusal? call).isSome = true) ∧
              run.Ended host path (LeftFree (TakenBy commands) base session path) outcome) ∧
            ((∀ call ∈ (run.plan path).drop (calls.length - 1),
                session.closed call.gate = false) →
              ∃ outcome, (session.poll (.load path)).2 = some outcome ∧
                run.Ended host path (LeftFree (TakenBy commands) base session path) outcome)) := by
  intro base session path record hfound hloader
  have hsteps : Steps (TakenBy commands) base session := performAll_steps allowed_takenBy base
  refine ⟨begun_of_steps hsteps path, fun failure content htask hslot => ?_,
    fun calls hbegun => ⟨hbegun.sublist, inTurn_of_begun hbegun hfound hloader, ?_⟩⟩
  · refine ((slot_eq_sealed_iff hsteps hfound).mp hslot).resolve_left fun hended => ?_
    exact absurd (htask.symm.trans hended) (by simp)
  · rcases onCourse_of_begun hbegun hfound hloader with hunrun | ⟨run, hread, hcourse⟩
    · exact Or.inl hunrun.prefix_fetch
    · refine Or.inr ⟨run, hread, hcourse.isPrefix, hcourse.passed,
        fun call hlast hclosed => hcourse.isHeld hfound hlast hclosed, fun outcome htask =>
        ⟨(hcourse.settled htask).1, hcourse.ended hsteps hfound htask⟩, fun hopen => ?_⟩
      cases htask : record.task.outcome? with
      | some outcome =>
        have hsettled := Task.outcome?_eq_some.mp htask
        refine ⟨outcome, ?_, hcourse.ended hsteps hfound hsettled⟩
        rw [poll_settled (outcomeOf_load_eq_some.mpr ⟨record, hfound, hsettled⟩)]
      | none =>
        obtain ⟨outcome, hpoll, hend⟩ := hcourse.poll hread hsteps.sameAnswers hfound htask hopen
        have hnot : ∀ content, record.task ≠ .settled (.ok content) := by
          intro content hsettled
          exact absurd htask (by rw [hsettled]; simp [Task.outcome?])
        refine ⟨outcome, hpoll, ?_⟩
        rw [← propext (leftFree_iff hsteps hfound hnot)]
        exact ended_of_result hend

/-- A component that is read from the only text there is. -/
theorem ComponentRun.ReadFrom.component_eq {markup : String}
    (h : run.ReadFrom allowed (start config host closed) session path)
    (hwritten : ∀ name text, allowed (.write name text) → text = markup)
    (hbase : ∀ name text, host.fetch name = .ok text → text = markup) :
    run.component = Component.ofMarkup markup := by
  obtain ⟨requested, text, linking, hread⟩ := h
  have htext : text = markup :=
    @Steps.fetch_held _ _ _ _ (fun _ text => text = markup) hwritten hbase hread.reached _
      hread.fetched
  rw [hread.component, htext]

/-- Whether the record is one of a component whose load has ended well. -/
def isLoadedComponent (record : Record) : Bool :=
  match record.loader, record.task with
  | .component, .settled (.ok _) => true
  | _, _ => false

/-- A component with a template, a script and a style, whose script is held at a closed gate at
first: its style is begun behind the moment at which the host has let the script go, and its load
ends with the template on the exports of the script. -/
theorem component_gets_its_template :
    let markup := "<template>T</template><script>export default null</script><style>a</style>"
    let host : Host := ⟨[("c.html", markup)], [], Host.exportOrigin, []⟩
    let base := start Config.default host fun gate => gate == "execute:c.html"
    let commands := [Command.load "c.html" none, .act (.openGate "execute:c.html"), .run]
    let session := base.performAll commands
    ∃ record, session.find? "c.html" = some record ∧ record.loader = .component ∧
      ∃ (calls : List HostCall) (run : ComponentRun) (content : Content),
        Begun (TakenBy commands) base "c.html" calls session ∧
        run.ReadFrom (TakenBy commands) base session "c.html" ∧ calls = run.plan "c.html" ∧
        LetGo (TakenBy commands) base session "c.html" [.fetch "c.html"]
          (.execute run.wrapper run.dependencies) [.style "a"] ∧
        record.task = .settled (.ok content) ∧
        Attached "T" (host.execute run.wrapper) content := by
  intro markup host base commands session
  have hloaded : (session.find? "c.html").any isLoadedComponent = true := by decide +kernel
  obtain ⟨record, hfound, hrecord⟩ := (Option.any_eq_true _ _).mp hloaded
  unfold isLoadedComponent at hrecord
  split at hrecord
  · next content hloader htask =>
    obtain ⟨⟨calls, hbegun⟩, -, hall⟩ := component_load_is_ordered Config.default host
      (fun gate => gate == "execute:c.html") commands "c.html" record hfound hloader
    obtain ⟨-, hturn, ⟨-, hpast⟩ | ⟨run, hread, -, -, -, hend, -⟩⟩ := hall calls hbegun
    · exact absurd hpast (by rw [htask]; simp [Task.isPastRun])
    obtain ⟨hcalls, hended⟩ := hend _ htask
    have hpassed : ∀ call, host.refusal? call = none := fun call => rfl
    have hplan : calls = run.plan "c.html" := by
      refine hcalls.resolve_right ?_
      rintro ⟨call, -, hrefused⟩
      exact absurd hrefused (by rw [hpassed]; simp)
    have hcomponent : run.component = Component.ofMarkup markup :=
      hread.component_eq
        (fun _ _ hwritten => by simp [TakenBy, commands, Command.action?] at hwritten)
        fun _ _ hheld => (Prod.mk.inj (List.mem_singleton.mp (mem_texts_of_fetch hheld))).2
    have htemplate : run.component.template = some "T" := by
      rw [hcomponent]
      decide +kernel
    have hstyles : run.component.styles = ["a"] := by
      rw [hcomponent]
      decide +kernel
    have hlet := hturn [.fetch "c.html"] (.execute run.wrapper run.dependencies) (.style "a") []
      (by rw [hplan, plan, hstyles]; rfl)
    have hexports : ¬ Unattachable (host.execute run.wrapper) := by
      intro hexports
      obtain ⟨id, hinvalid⟩ :=
        ((hended.unattachable (fun call _ => hpassed call) "T" htemplate).1).mpr hexports
      exact absurd hinvalid (by simp)
    have hfree : LeftFree (TakenBy commands) base session "c.html" := by
      by_contra hnot
      exact hended.taken hnot content rfl
    obtain ⟨attached, hsame, hattached, -⟩ :=
      hended.attached (fun call _ => hpassed call) "T" htemplate hexports hfree
    obtain rfl := Except.ok.inj hsame
    exact ⟨record, hfound, hloader, calls, run, content, hbegun, hread, hplan, hlet, htask,
      hattached⟩
  · exact absurd hrecord (by simp)

end ScriptLink.Session
