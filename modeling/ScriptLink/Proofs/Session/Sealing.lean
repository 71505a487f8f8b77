import ScriptLink.Proofs.Session.Confluence

/-!
# Slots and outcomes

The slot of a module can be written by three parties: by the load when it ends well, from outside,
and by a registered loader in the middle of its own load. Whoever comes first wins, and the load
knows: it ends well only if it was the one.

* **`Stepped.slot_kept`** — a slot that is sealed keeps its content, whoever tries again.
* **`SealedByLoad`** — a load that has ended well has put its content into the slot.
* **`HoldsForeign`** — the slot is sealed, and the load has not ended well. Nothing leads out of
  this state.
* **`SealedElsewhere`** — the moment at which another party wrote the slot.
  `HoldsForeign.sealedElsewhere` finds that moment behind every such slot.
* **`poll_settled`**, **`run_observes`** — what the handles of a module see once its load has
  ended.
* **`slot_and_outcome_agree`** — the law.
-/

namespace ScriptLink

/-- The action that a command takes, if any. -/
def Command.action? : Command → Option Action
  | .act action => some action
  | .run => none
  | .load specifier referrer => some (.request specifier referrer)

/-- One of the commands takes the action. -/
def TakenBy (commands : List Command) (action : Action) : Prop :=
  ∃ command ∈ commands, command.action? = some action

theorem allowed_takenBy {commands : List Command} :
    ∀ command ∈ commands, command.Allowed (TakenBy commands) := by
  intro command hmem
  cases command with
  | act action => exact ⟨_, hmem, rfl⟩
  | run => trivial
  | load specifier referrer => exact ⟨_, hmem, rfl⟩

namespace Session

variable {allowed : Action → Prop} {session after last : Session} {path : String}
  {record next : Record} {content : Content} {config : Config} {host : Host}
  {closed : String → Bool}

/-! ## Written once -/

theorem exports?_eq_some : session.exports? path = some content ↔
    ∃ record, session.find? path = some record ∧ record.slot = .sealed content := by
  unfold exports?
  rw [Option.bind_eq_some_iff]
  refine exists_congr fun record => and_congr_right fun _ => ?_
  cases record.slot <;> simp [Slot.get?]

/-- The two moves that write a slot find it empty. -/
theorem Moved.slot_kept (h : Moved path session after record next)
    (hsealed : record.slot = .sealed content) : next.slot = .sealed content := by
  cases h with
  | resolve _ hempty => exact absurd (hempty.symm.trans hsealed) (by simp)
  | fill _ _ _ hempty => exact absurd (hempty.symm.trans hsealed) (by simp)
  | _ => exact hsealed

theorem Stepped.slot_kept (h : Stepped allowed path session after record next)
    (hsealed : record.slot = .sealed content) : next.slot = .sealed content := by
  cases h with
  | kept => exact hsealed
  | sealed _ hempty _ => exact absurd (hempty.symm.trans hsealed) (by simp)
  | moved _ hmoved => exact hmoved.slot_kept hsealed

/-- **A slot is written once**, and keeps its content through every step. -/
theorem Steps.exports?_kept (h : Steps allowed session after)
    (hsealed : session.exports? path = some content) : after.exports? path = some content := by
  induction h with
  | refl => exact hsealed
  | tail _ hlast ih =>
    obtain ⟨record, hfound, hslot⟩ := exports?_eq_some.mp ih
    obtain ⟨next, hnext⟩ := Option.isSome_iff_exists.mp (hlast.recorded (by rw [hfound]; rfl))
    exact exports?_eq_some.mpr ⟨next, hnext, (hlast.stepped hfound hnext).slot_kept hslot⟩

/-! ## Ended well -/

/-- Every load that has ended well has put its content into the slot. -/
def SealedByLoad (session : Session) : Prop :=
  ∀ path content, session.outcomeOf (.load path) = some (.ok content) →
    session.exports? path = some content

/-- A load ends well by writing its slot. -/
theorem Moved.sealed_of_ok (h : Moved path session after record next)
    (hended : next.task = .settled (.ok content)) : next.slot = .sealed content := by
  have hopen : ∀ {call task}, Calls session record call task → task ≠ .settled (.ok content) :=
    fun hcalls heq => absurd (heq ▸ hcalls.content?.2) (by simp [Task.content?])
  cases h with
  | call hcalls => exact absurd hended (hopen hcalls)
  | resolve _ _ =>
    obtain rfl := Except.ok.inj (Task.settled.inj hended)
    rfl
  | fill htask _ _ _ => exact absurd (htask.symm.trans hended) (by simp)
  | _ => exact absurd hended (by simp)

theorem SealedByLoad.step (h : SealedByLoad session) (hstep : Step allowed session after) :
    SealedByLoad after := by
  intro path content hended
  obtain ⟨next, hnext, htask⟩ := outcomeOf_load_eq_some.mp hended
  refine exports?_eq_some.mpr ⟨next, hnext, ?_⟩
  cases hfound : session.find? path with
  | none =>
    have hfresh := hstep.isFresh hfound hnext
    exact absurd (hfresh.2.1.symm.trans htask) (by simp)
  | some record =>
    -- a load that had ended well before the step had its slot sealed then
    have hbefore : record.task = .settled (.ok content) → record.slot = .sealed content := by
      intro hsettled
      have houtcome := outcomeOf_load_eq_some.mpr ⟨record, hfound, hsettled⟩
      obtain ⟨other, hother, hslot⟩ := exports?_eq_some.mp (h path content houtcome)
      obtain rfl := Option.some.inj (hfound.symm.trans hother)
      exact hslot
    cases hstep.stepped hfound hnext with
    | kept => exact hbefore htask
    | sealed _ hempty _ => exact absurd (hempty.symm.trans (hbefore htask)) (by simp)
    | moved _ hmoved => exact hmoved.sealed_of_ok htask

theorem sealedByLoad_of_start (h : Steps allowed (start config host closed) session) :
    SealedByLoad session :=
  h.preserves (fun _ _ hstep hsealed => hsealed.step hstep)
    fun _ _ hended => absurd hended (by simp [start, outcomeOf, find?])

/-! ## Written by someone else -/

/-- The slot of the module holds a content that its load has not ended with. -/
def HoldsForeign (session : Session) (path : String) (content : Content) : Prop :=
  ∃ record, session.find? path = some record ∧ record.slot = .sealed content ∧
    record.task.content? = none

/-- A load that finds its slot sealed does not end well. -/
theorem Moved.content?_of_sealed (h : Moved path session after record next)
    (hsealed : record.slot = .sealed content) (hopen : record.task.content? = none) :
    next.task.content? = none := by
  cases h with
  | call hcalls => exact hcalls.content?.2
  | resolve _ hempty => exact absurd (hempty.symm.trans hsealed) (by simp)
  | fill _ _ _ _ => exact hopen
  | _ => rfl

theorem HoldsForeign.step (h : HoldsForeign session path content)
    (hstep : Step allowed session after) : HoldsForeign after path content := by
  obtain ⟨record, hfound, hsealed, hopen⟩ := h
  obtain ⟨next, hnext⟩ := Option.isSome_iff_exists.mp (hstep.recorded (by rw [hfound]; rfl))
  have hstepped := hstep.stepped hfound hnext
  refine ⟨next, hnext, hstepped.slot_kept hsealed, ?_⟩
  cases hstepped with
  | kept => exact hopen
  | sealed _ _ _ => exact hopen
  | moved _ hmoved => exact hmoved.content?_of_sealed hsealed hopen

theorem HoldsForeign.steps (h : HoldsForeign session path content)
    (hsteps : Steps allowed session after) : HoldsForeign after path content := by
  induction hsteps with
  | refl => exact h
  | tail _ hlast ih => exact ih.step hlast

theorem HoldsForeign.notEndedWell (h : HoldsForeign session path content) :
    NotEndedWell session path := by
  obtain ⟨record, hfound, -, hopen⟩ := h
  exact notEndedWell_of_task hfound hopen

/-- The moment at which a party other than the load wrote `content` into the slot of `path`, which
was empty: someone from outside, or the registered loader of the module after its call. -/
inductive SealedElsewhere (allowed : Action → Prop) (base last : Session) (path : String)
    (content : Content) : Prop where
  | outside {before : Session} {record : Record} (hbefore : Steps allowed base before)
      (hallowed : allowed (.sealSlot path content))
      (hfound : before.find? path = some record) (hempty : record.slot = .empty)
      (hafter : Steps allowed (before.act (.sealSlot path content)) last) :
      SealedElsewhere allowed base last path content
  | loader {before after : Session} {record : Record} {custom : CustomLoader}
      (hbefore : Steps allowed base before) (hstep : Step allowed before after)
      (hfound : before.find? path = some record) (htask : record.task = .customizing custom)
      (hvalue : custom.slotValue = some content) (hempty : record.slot = .empty)
      (hsealed : after.find? path = some { record with slot := .sealed content })
      (hafter : Steps allowed after last) : SealedElsewhere allowed base last path content

theorem SealedElsewhere.step (h : SealedElsewhere allowed session last path content)
    {later : Session} (hstep : Step allowed last later) :
    SealedElsewhere allowed session later path content := by
  cases h with
  | outside hbefore hallowed hfound hempty hafter =>
    exact .outside hbefore hallowed hfound hempty (hafter.tail hstep)
  | loader hbefore hfill hfound htask hvalue hempty hsealed hafter =>
    exact .loader hbefore hfill hfound htask hvalue hempty hsealed (hafter.tail hstep)

/-- What another party has written is in the slot, and the load does not end well. -/
theorem SealedElsewhere.holdsForeign
    (h : SealedElsewhere allowed (start config host closed) last path content) :
    HoldsForeign last path content := by
  cases h with
  | @outside before record hbefore hallowed hfound hempty hafter =>
    refine HoldsForeign.steps ?_ hafter
    have hact : before.act (.sealSlot path content) = before.setSlot path (.sealed content) := by
      unfold act sealSlot?
      simp only [hfound, hempty, Slot.seal?, Option.map_some, Option.getD_some]
    refine ⟨_, hact ▸ find?_setSlot_self hfound, rfl, ?_⟩
    -- a load that has ended well would have left a content in the slot
    cases hended : record.task.content? with
    | none => rfl
    | some ended =>
      have houtcome := outcomeOf_load_eq_some.mpr ⟨record, hfound, Task.content?_eq_some.mp hended⟩
      obtain ⟨other, hother, hslot⟩ :=
        exports?_eq_some.mp (sealedByLoad_of_start hbefore path ended houtcome)
      obtain rfl := Option.some.inj (hfound.symm.trans hother)
      exact absurd (hempty.symm.trans hslot) (by simp)
  | loader _ _ _ htask _ _ hsealed hafter =>
    exact HoldsForeign.steps ⟨_, hsealed, rfl, by rw [htask]; rfl⟩ hafter

/-- **Behind a content that is not the load's own stands the party that wrote it.** The induction
goes back through the steps, to the one before which the slot was empty. -/
theorem HoldsForeign.sealedElsewhere (h : HoldsForeign last path content)
    (hsteps : Steps allowed (start config host closed) last) :
    SealedElsewhere allowed (start config host closed) last path content := by
  induction hsteps with
  | refl =>
    obtain ⟨record, hfound, -⟩ := h
    exact absurd hfound (by simp [start, find?])
  | @tail session last hbefore hlast ih =>
    obtain ⟨next, hnext, hsealed, hopen⟩ := h
    cases hfound : session.find? path with
    | none =>
      have hfresh := hlast.isFresh hfound hnext
      exact absurd (hfresh.1.symm.trans hsealed) (by simp)
    | some record =>
      cases hlast.stepped hfound hnext with
      | kept => exact (ih ⟨_, hfound, hsealed, hopen⟩).step hlast
      | sealed hallowed hempty hafter =>
        obtain rfl := Slot.sealed.inj hsealed
        exact .outside hbefore hallowed hfound hempty (hafter ▸ .refl)
      | moved hmove hmoved =>
        cases hslot : record.slot with
        | sealed old =>
          -- the slot was sealed before, and the load that moves had not ended
          obtain rfl := Slot.sealed.inj ((hmoved.slot_kept hslot).symm.trans hsealed)
          obtain ⟨moving, -, hmoving, hmovable, -⟩ := hmove.reworked.own
          obtain rfl := Option.some.inj (hfound.symm.trans hmoving)
          exact (ih ⟨record, hfound, hslot, Task.content?_of_open hmovable⟩).step hlast
        | empty =>
          cases hmoved with
          | resolve _ _ => exact absurd hopen (by simp [Task.content?])
          | fill htask _ hvalue hempty =>
            obtain rfl := Slot.sealed.inj hsealed
            exact .loader hbefore hlast hfound htask hvalue hempty hnext .refl
          | _ => exact absurd (hslot.symm.trans hsealed) (by simp)

/-- **Whose content it is**: the one that the load has ended with, or that of another party. -/
theorem slot_eq_sealed_iff (hsteps : Steps allowed (start config host closed) session)
    (hfound : session.find? path = some record) :
    record.slot = .sealed content ↔ record.task = .settled (.ok content) ∨
      SealedElsewhere allowed (start config host closed) session path content := by
  constructor
  · intro hslot
    cases hended : record.task.content? with
    | none => exact Or.inr (HoldsForeign.sealedElsewhere ⟨record, hfound, hslot, hended⟩ hsteps)
    | some ended =>
      have hsettled := Task.content?_eq_some.mp hended
      have hown := sealedByLoad_of_start hsteps path ended
        (outcomeOf_load_eq_some.mpr ⟨record, hfound, hsettled⟩)
      have hexports := exports?_eq_some.mpr ⟨record, hfound, hslot⟩
      obtain rfl := Option.some.inj (hown.symm.trans hexports)
      exact Or.inl hsettled
  · have hslot : session.exports? path = some content → record.slot = .sealed content := by
      intro hexports
      obtain ⟨other, hother, hslot⟩ := exports?_eq_some.mp hexports
      obtain rfl := Option.some.inj (hfound.symm.trans hother)
      exact hslot
    rintro (hsettled | helsewhere)
    · exact hslot (sealedByLoad_of_start hsteps path content
        (outcomeOf_load_eq_some.mpr ⟨record, hfound, hsettled⟩))
    · obtain ⟨other, hother, hsealed, -⟩ := helsewhere.holdsForeign
      exact hslot (exports?_eq_some.mpr ⟨other, hother, hsealed⟩)

/-! ## What handles observe -/

theorem bound_eq_succ (session : Session) : ∃ count, session.bound = count + 1 :=
  Nat.exists_eq_succ_of_ne_zero (Nat.ne_of_gt (Nat.pow_pos (Nat.succ_pos _)))

/-- A load that has ended answers its outcome, and polling it changes nothing. -/
theorem poll_settled {request : Request} {outcome : Outcome}
    (h : session.outcomeOf request = some outcome) :
    session.poll request = (session, some outcome) := by
  cases request with
  | refused failure =>
    obtain rfl := Option.some.inj h
    rfl
  | load path =>
    obtain ⟨record, hfound, htask⟩ := outcomeOf_load_eq_some.mp h
    obtain ⟨count, hcount⟩ := bound_eq_succ session
    show pollFor session.bound [] path session = _
    rw [hcount]
    unfold pollFor
    simp only [hfound, htask]

theorem pollHandle_observes {handle : Nat} {request : Request} {outcome : Outcome}
    (h : session.outcomeOf request = some outcome) :
    (session.pollHandle handle).1.handles[handle]? ≠ some ⟨request, none⟩ := by
  intro hpending
  have hbefore := pending_of_steps (pollHandle_steps session handle) hpending
  unfold pollHandle at hpending
  simp only [hbefore, poll_settled h] at hpending
  unfold settle at hpending
  rw [List.getElem?_modify, hbefore] at hpending
  exact absurd hpending (by simp)

theorem pass_observes {handles : List Nat} {handle : Nat} (hmem : handle ∈ handles)
    {request : Request} {outcome : Outcome} (h : session.outcomeOf request = some outcome) :
    (session.pass handles).1.handles[handle]? ≠ some ⟨request, none⟩ := by
  induction handles generalizing session with
  | nil => exact absurd hmem List.not_mem_nil
  | cons first rest ih =>
    have hfirst : Steps (fun _ => False) session (session.pollHandle first).1 :=
      pollHandle_steps session first
    have hrest : Steps (fun _ => False) (session.pollHandle first).1
        (session.pass (first :: rest)).1 := pass_steps rest _
    rcases List.mem_cons.mp hmem with rfl | hlater
    · exact fun hpending => pollHandle_observes h (pending_of_steps hrest hpending)
    · exact ih hlater (hfirst.outcomeOf h)

/-- **A run shows every handle the outcome that its load has.** The first pass is enough. -/
theorem run_observes (hmatch : HandlesMatch session.run.1) {index : Nat} {handle : Handle}
    (hhandle : session.handles[index]? = some handle) {outcome : Outcome}
    (h : session.outcomeOf handle.request = some outcome) :
    session.run.1.outcome? index = some outcome := by
  have hsteps : Steps (fun _ => False) session session.run.1 := run_steps session
  -- the handle is still there and stands for the same request
  have hrequests := congrArg (fun requests => requests[index]?) hsteps.map_request
  simp only [List.getElem?_map, hhandle, Option.map_some] at hrequests
  obtain ⟨⟨_, ended⟩, hlast, rfl⟩ := Option.map_eq_some_iff.mp hrequests
  cases ended with
  | some observed =>
    have htrue := (hmatch _ (List.mem_of_getElem? hlast)).outcome observed rfl
    obtain rfl := Option.some.inj (htrue.symm.trans (hsteps.outcomeOf h))
    unfold outcome?
    rw [hlast]
    rfl
  | none =>
    exfalso
    obtain ⟨count, hcount⟩ := bound_eq_succ session
    have hlt := (List.getElem?_eq_some_iff.mp hhandle).1
    have hpass : ∀ {after : Session},
        Steps (fun _ => False) (session.pass (List.range session.handles.length)).1 after →
        after.handles[index]? ≠ some ⟨handle.request, none⟩ := fun hlater hpending =>
      pass_observes (List.mem_range.mpr hlt) h (pending_of_steps hlater hpending)
    unfold run at hlast
    rw [hcount] at hlast
    unfold passes at hlast
    dsimp only at hlast
    split at hlast
    · exact hpass .refl hlast
    · exact hpass (passes_steps count _) hlast

/-! ## The law -/

/-- **Slot and outcome agree.** Take any commands with any loaders, and any commands after them. The
slot of a recorded module, once sealed, keeps its content. It holds a content exactly if the load
has ended well with it or another party has written it; so a load that has ended well has sealed
its slot with its content, and while a load has not ended, or has failed, its slot is empty unless
another party has written it. In that case the load never ends well, and what was written stays.
An outcome is final: it is what polling the load answers from then on, what its handles hold that
have an outcome, and what they all hold after the next run. -/
theorem slot_and_outcome_agree (config : Config) (host : Host) (closed : String → Bool)
    (earlier later : List Command) :
    let base := start config host closed
    let session := base.performAll earlier
    let last := session.performAll later
    ∀ path record, session.find? path = some record →
      (∀ content, record.slot = .sealed content → last.exports? path = some content) ∧
      (∀ content, record.slot = .sealed content ↔ record.task = .settled (.ok content) ∨
        SealedElsewhere (TakenBy earlier) base session path content) ∧
      (∀ content, SealedElsewhere (TakenBy earlier) base session path content →
        last.exports? path = some content ∧
        ∀ other, last.outcomeOf (.load path) ≠ some (.ok other)) ∧
      (∀ outcome, record.task = .settled outcome →
        last.outcomeOf (.load path) = some outcome ∧
        last.poll (.load path) = (last, some outcome) ∧
        ∀ (index : Nat) handle, last.handles[index]? = some handle → handle.request = .load path →
          (∀ observed, handle.outcome = some observed → observed = outcome) ∧
          last.run.1.outcome? index = some outcome) := by
  intro base session last path record hfound
  have hsteps : Steps (TakenBy earlier) base session := performAll_steps allowed_takenBy base
  have hlater : Steps (TakenBy later) session last := performAll_steps allowed_takenBy session
  have hall : Steps (fun _ => True) base last :=
    (hsteps.mono fun _ _ => trivial).trans (hlater.mono fun _ _ => trivial)
  refine ⟨fun content hslot => ?_, fun content => slot_eq_sealed_iff hsteps hfound,
    fun content helsewhere => ?_, fun outcome hsettled => ?_⟩
  · exact hlater.exports?_kept (exports?_eq_some.mpr ⟨record, hfound, hslot⟩)
  · have hforeign := helsewhere.holdsForeign.steps hlater
    obtain ⟨kept, hkept, hsealed, -⟩ := id hforeign
    exact ⟨exports?_eq_some.mpr ⟨kept, hkept, hsealed⟩, hforeign.notEndedWell⟩
  · have houtcome : last.outcomeOf (.load path) = some outcome :=
      hlater.outcomeOf (outcomeOf_load_eq_some.mpr ⟨record, hfound, hsettled⟩)
    refine ⟨houtcome, poll_settled houtcome, fun index handle hhandle hrequest => ⟨?_, ?_⟩⟩
    · intro observed hobserved
      have htrue := (handlesMatch_of_start hall handle (List.mem_of_getElem? hhandle)).outcome
        observed hobserved
      rw [hrequest, houtcome, Option.some.injEq] at htrue
      exact htrue.symm
    · exact run_observes (handlesMatch_of_start (hall.trans (run_steps last))) hhandle
        (hrequest ▸ houtcome)

/-- Whether the slot of a record holds the text, although its load has not begun. -/
def holdsText (text : String) (record : Record) : Bool :=
  match record.slot, record.task with
  | .sealed (.text held), .start => held == text
  | _, _ => false

/-- A style sheet whose slot is written from outside before its load has begun: what was written
stays, and the load does not end well. -/
theorem foreign_content_stays :
    let earlier := [Command.act (.request "./a.css" none), .act (.sealSlot "a.css" (.text "x"))]
    let base := start Config.default ⟨[], [], Host.exportOrigin, []⟩ fun _ => false
    let session := base.performAll earlier
    let last := session.performAll [.run]
    (session.find? "a.css").isSome = true ∧
    SealedElsewhere (TakenBy earlier) base session "a.css" (.text "x") ∧
    last.exports? "a.css" = some (.text "x") ∧
    ∀ content, last.outcomeOf (.load "a.css") ≠ some (.ok content) := by
  intro earlier base session last
  have hholds : (session.find? "a.css").any (holdsText "x") = true := by decide +kernel
  obtain ⟨record, hfound, hrecord⟩ := (Option.any_eq_true _ _).mp hholds
  have hlaw := slot_and_outcome_agree Config.default ⟨[], [], Host.exportOrigin, []⟩
    (fun _ => false) earlier [.run] "a.css" record hfound
  unfold holdsText at hrecord
  split at hrecord
  · next held hslot htask =>
    obtain rfl : held = "x" := by simpa using hrecord
    have helsewhere := ((hlaw.2.1 (.text "x")).mp hslot).resolve_left (by rw [htask]; simp)
    exact ⟨by rw [hfound]; rfl, helsewhere, hlaw.2.2.1 _ helsewhere⟩
  · exact absurd hrecord (by simp)

end Session

end ScriptLink
