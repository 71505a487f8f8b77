import ScriptLink.Proofs.Session.Polling

/-!
# Using a session, step by step

A session is used by a sequence of commands: requests, runs, and changes to gates, texts,
loaders and slots. Between the commands, and inside a run, it goes through many states; all of
them are reached by the steps below, so an invariant that steps keep holds in every state that
a session is ever in.

* **`Command`**, **`performAll`** — what a user of a session does. Commands that only look at a
  session are left out, since they leave it as it is.
* **`Step allowed`** — one move of one module, one handle that gets its outcome, or one action
  from outside that is `allowed`. A theorem that restricts the use of a session (no foreign
  seals, only some loaders) restricts the actions.
* **`performAll_steps`** — commands are sequences of steps.
-/

namespace ScriptLink

/-- What can be done to a session from outside without polling anything. -/
inductive Action where
  | request (specifier : String) (referrer : Option String)
  | openGate (gate : String)
  | closeGate (gate : String)
  | write (path text : String)
  | register (suffix : String) (loader : Loader)
  | sealSlot (path : String) (content : Content)
  deriving Repr

/-- What a user of a session does: actions and runs, and a request that is followed by a run. -/
inductive Command where
  | act (action : Action)
  | run
  | load (specifier : String) (referrer : Option String)
  deriving Repr

/-- Whether an action leaves every open gate open. -/
def Action.keepsOpen : Action → Bool
  | closeGate _ => false
  | _ => true

/-- Whether all actions of a command are allowed. -/
def Command.Allowed (allowed : Action → Prop) : Command → Prop
  | act action => allowed action
  | run => True
  | load specifier referrer => allowed (.request specifier referrer)

namespace Session

/-- The session after an action; a refused registration or seal changes nothing. -/
def act (session : Session) : Action → Session
  | .request specifier referrer => (session.import? specifier referrer).1
  | .openGate gate => session.openGate gate
  | .closeGate gate => session.closeGate gate
  | .write path text => session.write path text
  | .register suffix loader => (session.register? suffix loader).getD session
  | .sealSlot path content =>
    match session.find? path with
    | none => session
    | some record => (session.sealSlot? path record.slot content).getD session

def perform (session : Session) : Command → Session
  | .act action => session.act action
  | .run => session.run.1
  | .load specifier referrer => (session.act (.request specifier referrer)).run.1

/-- The session after a sequence of commands. -/
def performAll (session : Session) (commands : List Command) : Session :=
  commands.foldl perform session

/-- One step of a session that is used by allowed actions only. -/
inductive Step (allowed : Action → Prop) (session : Session) : Session → Prop where
  | move {path : String} {after : Session} (hmove : Move path session after) :
      Step allowed session after
  | settle {handle : Nat} {request : Request} {outcome : Outcome}
      (hhandle : session.handles[handle]? = some ⟨request, none⟩)
      (houtcome : session.outcomeOf request = some outcome) :
      Step allowed session (session.settle handle outcome)
  | act {action : Action} (haction : allowed action) : Step allowed session (session.act action)

/-- Any number of steps. -/
def Steps (allowed : Action → Prop) : Session → Session → Prop :=
  Relation.ReflTransGen (Step allowed)

variable {allowed : Action → Prop} {session after last : Session} {path : String}
  {record : Record}

/-! ## Actions

An action leaves the log and the wait graph alone. It keeps every record, but a seal may write
an empty slot, and a request may add a record that is untouched. -/

/-- A seal writes an empty slot or is refused. -/
theorem act_sealSlot_cases (session : Session) (path : String) (content : Content) :
    session.act (.sealSlot path content) = session ∨
      ∃ record, session.find? path = some record ∧ record.slot = .empty ∧
        session.act (.sealSlot path content) = session.setSlot path (.sealed content) := by
  unfold act
  dsimp only
  split
  · exact Or.inl rfl
  · next record hfound =>
    unfold sealSlot?
    cases hslot : record.slot with
    | sealed old => exact Or.inl rfl
    | empty => exact Or.inr ⟨record, hfound, hslot, rfl⟩

/-- A registration changes the loaders and adds to the demand, or is refused. -/
theorem act_register_cases (session : Session) (suffix : String) (loader : Loader) :
    session.act (.register suffix loader) = session ∨
      ∃ loaders demand, session.loaders.register? suffix loader = some loaders ∧
        session.demand ≤ demand ∧
        session.act (.register suffix loader) =
          { session with loaders := loaders, demand := demand } := by
  unfold act
  dsimp only
  unfold register?
  cases hloaders : session.loaders.register? suffix loader with
  | none => exact Or.inl rfl
  | some loaders =>
    refine Or.inr ⟨loaders, _, rfl, ?_, rfl⟩
    exact Nat.le_trans (Nat.le_add_right _ _) (Nat.le_trans (Nat.le_add_right _ _)
      (Nat.le_succ _))

/-- What no action changes, and the host, which only a write changes. -/
theorem act_frame (action : Action) :
    (session.act action).log = session.log ∧ (session.act action).waits = session.waits ∧
      (session.act action).config = session.config ∧
      ((∀ name text, action ≠ .write name text) →
        (session.act action).host = session.host) := by
  cases action with
  | request specifier referrer =>
    exact ⟨(grown_request session specifier _).log, request_waits,
      (grown_request session specifier _).config,
      fun _ => (grown_request session specifier _).host⟩
  | register suffix loader =>
    rcases act_register_cases session suffix loader with heq | ⟨_, _, -, -, heq⟩ <;> rw [heq] <;>
      exact ⟨rfl, rfl, rfl, fun _ => rfl⟩
  | sealSlot path content =>
    rcases act_sealSlot_cases session path content with heq | ⟨_, -, -, heq⟩ <;> rw [heq] <;>
      exact ⟨rfl, rfl, rfl, fun _ => rfl⟩
  | write name text => exact ⟨rfl, rfl, rfl, fun hwrite => absurd rfl (hwrite name text)⟩
  | _ => exact ⟨rfl, rfl, rfl, fun _ => rfl⟩

theorem act_log (action : Action) : (session.act action).log = session.log :=
  (act_frame action).1

theorem act_waits (action : Action) : (session.act action).waits = session.waits :=
  (act_frame action).2.1

theorem act_config (action : Action) : (session.act action).config = session.config :=
  (act_frame action).2.2.1

theorem act_host {action : Action} (h : ∀ name text, action ≠ .write name text) :
    (session.act action).host = session.host :=
  (act_frame action).2.2.2 h

/-- **An action keeps every record**, up to the content that it may put into an empty slot. -/
theorem act_found (action : Action) (hfound : session.find? path = some record) :
    (session.act action).find? path = some record ∨
      ∃ content, action = .sealSlot path content ∧ record.slot = .empty ∧
        (session.act action).find? path = some { record with slot := .sealed content } := by
  cases action with
  | request specifier referrer =>
    exact Or.inl ((grown_request session specifier _).found hfound)
  | register suffix loader =>
    rcases act_register_cases session suffix loader with heq | ⟨_, _, -, -, heq⟩
    · rw [heq]
      exact Or.inl hfound
    · rw [heq]
      exact Or.inl hfound
  | sealSlot other content =>
    rcases act_sealSlot_cases session other content with heq | ⟨target, htarget, hslot, heq⟩
    · rw [heq]
      exact Or.inl hfound
    · rw [heq]
      by_cases hpath : other = path
      · subst hpath
        rw [hfound, Option.some.injEq] at htarget
        subst htarget
        exact Or.inr ⟨content, rfl, hslot, find?_setSlot_self hfound⟩
      · rw [find?_setSlot, if_neg (Ne.symm hpath)]
        exact Or.inl hfound
  | _ => exact Or.inl hfound

/-- A record that an action adds is untouched. -/
theorem act_fresh (action : Action) (hfound : (session.act action).find? path = some record) :
    (session.find? path).isSome = true ∨ session.IsFresh record := by
  cases action with
  | request specifier referrer =>
    rcases (grown_request session specifier _).fresh hfound with hold | ⟨-, hslot, htask, hfrom⟩
    · exact Or.inl (by rw [hold]; rfl)
    · rw [← path_of_find? hfound] at hfrom
      exact Or.inr ⟨hslot, htask, hfrom⟩
  | register suffix loader =>
    rcases act_register_cases session suffix loader with heq | ⟨_, _, -, -, heq⟩
    · rw [heq] at hfound
      exact Or.inl (by rw [hfound]; rfl)
    · rw [heq] at hfound
      exact Or.inl (Option.isSome_iff_exists.mpr ⟨record, hfound⟩)
  | sealSlot other content =>
    rcases act_sealSlot_cases session other content with heq | ⟨_, -, -, heq⟩
    · rw [heq] at hfound
      exact Or.inl (by rw [hfound]; rfl)
    · rw [heq, find?_setSlot] at hfound
      refine Or.inl ?_
      cases hold : session.find? path with
      | some old => rfl
      | none => rw [hold] at hfound; split at hfound <;> exact absurd hfound (by simp)
  | _ => exact Or.inl (Option.isSome_iff_exists.mpr ⟨record, hfound⟩)

theorem act_nodup (action : Action) (hnodup : (session.records.map Record.path).Nodup) :
    ((session.act action).records.map Record.path).Nodup := by
  cases action with
  | request specifier referrer => exact (grown_request session specifier _).nodup hnodup
  | register suffix loader =>
    rcases act_register_cases session suffix loader with heq | ⟨_, _, -, -, heq⟩
    · rw [heq]
      exact hnodup
    · rw [heq]
      exact hnodup
  | sealSlot other content =>
    rcases act_sealSlot_cases session other content with heq | ⟨_, -, -, heq⟩
    · rw [heq]
      exact hnodup
    · rw [heq, map_path_setSlot]
      exact hnodup
  | _ => exact hnodup

/-! ## Sequences of steps -/

theorem Steps.trans (h1 : Steps allowed session after) (h2 : Steps allowed after last) :
    Steps allowed session last :=
  Relation.ReflTransGen.trans h1 h2

/-- What every step keeps holds in every state that is reached. -/
theorem Steps.preserves {holds : Session → Prop}
    (hstep : ∀ session after, Step allowed session after → holds session → holds after)
    (h : Steps allowed session after) (hstart : holds session) : holds after := by
  induction h with
  | refl => exact hstart
  | tail _ hlast ih => exact hstep _ _ hlast ih

theorem Steps.mono {more : Action → Prop} (hsub : ∀ action, allowed action → more action)
    (h : Steps allowed session after) : Steps more session after := by
  refine Relation.ReflTransGen.mono (fun before next hstep => ?_) _ _ h
  cases hstep with
  | move hmove => exact .move hmove
  | settle hhandle houtcome => exact .settle hhandle houtcome
  | act haction => exact .act (hsub _ haction)

theorem Moves.steps {busy : List String} (h : Moves busy session after) :
    Steps allowed session after :=
  Relation.ReflTransGen.mono (fun _ _ ⟨_, _, hmove⟩ => .move hmove) _ _ h

theorem Step.outcomeOf {outcome : Outcome} {request : Request}
    (h : Step allowed session after) (houtcome : session.outcomeOf request = some outcome) :
    after.outcomeOf request = some outcome := by
  cases h with
  | move hmove => exact hmove.outcomeOf houtcome
  | settle _ _ => exact houtcome
  | @act action _ =>
    cases request with
    | refused failure => exact houtcome
    | load target =>
      rw [outcomeOf_load_eq_some] at houtcome ⊢
      obtain ⟨record, hfound, htask⟩ := houtcome
      rcases act_found action hfound with hsame | ⟨content, -, -, hsealed⟩
      · exact ⟨record, hsame, htask⟩
      · exact ⟨_, hsealed, htask⟩

theorem Step.recorded (h : Step allowed session after)
    (hrecorded : (session.find? path).isSome = true) : (after.find? path).isSome = true := by
  obtain ⟨record, hfound⟩ := Option.isSome_iff_exists.mp hrecorded
  cases h with
  | @move actor _ hmove =>
    by_cases hactor : path = actor
    · subst hactor
      obtain ⟨_, next, -, -, hnext, -⟩ := hmove.reworked.own
      rw [hnext]
      rfl
    · rw [hmove.reworked.others path record hactor hfound]
      rfl
  | settle _ _ => exact hrecorded
  | @act action _ =>
    rcases act_found action hfound with hsame | ⟨content, -, -, hsealed⟩
    · rw [hsame]
      rfl
    · rw [hsealed]
      rfl

theorem Moves.recorded {busy : List String} (h : Moves busy session after)
    (hrecorded : (session.find? path).isSome = true) : (after.find? path).isSome = true := by
  induction h with
  | refl => exact hrecorded
  | tail _ hmove ih =>
    exact (Step.move hmove.choose_spec.2 : Step (fun _ => True) _ _).recorded ih

/-- **What a step keeps of every record.** A property of records that does not mind what other
modules do, holds of untouched records, and outlives a write to the slot and the module's own
moves, holds of all records after a step. -/
theorem Step.forall_records {holds : Session → String → Record → Prop}
    (h : Step allowed session after)
    (hkeep : ∀ path record, session.find? path = some record → holds session path record →
      holds after path record)
    (hfresh : ∀ path record, session.IsFresh record → holds after path record)
    (hseal : ∀ path record content, session.find? path = some record →
      allowed (.sealSlot path content) → holds session path record →
      holds after path { record with slot := .sealed content })
    (hmove : ∀ path record next, Move path session after → session.find? path = some record →
      Moved path session after record next → holds session path record → holds after path next)
    (hall : ∀ path record, session.find? path = some record → holds session path record) :
    ∀ path record, after.find? path = some record → holds after path record := by
  intro path next hnext
  have hkept : session.find? path = some next → holds after path next :=
    fun hold => hkeep path next hold (hall path next hold)
  cases h with
  | @move actor _ hmoved =>
    rcases hmoved.reworked.fresh path next hnext with hsome | hnew
    · obtain ⟨record, hfound⟩ := Option.isSome_iff_exists.mp hsome
      by_cases hactor : path = actor
      · have hown : Move path session after := hactor ▸ hmoved
        exact hmove path record next hown hfound (hown.moved hfound hnext)
          (hall path record hfound)
      · rw [hmoved.reworked.others path record hactor hfound, Option.some.injEq] at hnext
        exact hkept (hnext ▸ hfound)
    · exact hfresh path next hnew
  | settle _ _ => exact hkept hnext
  | @act action haction =>
    rcases act_fresh action hnext with hsome | hnew
    · obtain ⟨record, hfound⟩ := Option.isSome_iff_exists.mp hsome
      rcases act_found action hfound with hsame | ⟨content, rfl, -, hsealed⟩
      · rw [hsame, Option.some.injEq] at hnext
        exact hkept (hnext ▸ hfound)
      · rw [hsealed, Option.some.injEq] at hnext
        exact hnext ▸ hseal path record content hfound haction (hall path record hfound)
    · exact hfresh path next hnew

/-- What a step makes of one record: it stays, its empty slot is written from outside, or its own
load moves. -/
inductive Stepped (allowed : Action → Prop) (path : String) (session after : Session)
    (record : Record) : Record → Prop where
  | kept : Stepped allowed path session after record record
  | sealed {content : Content} (hallowed : allowed (.sealSlot path content))
      (hempty : record.slot = .empty) (hafter : after = session.act (.sealSlot path content)) :
      Stepped allowed path session after record { record with slot := .sealed content }
  | moved {next : Record} (hmove : Move path session after)
      (hmoved : Moved path session after record next) :
      Stepped allowed path session after record next

theorem Step.stepped {next : Record} (h : Step allowed session after)
    (hfound : session.find? path = some record) (hnext : after.find? path = some next) :
    Stepped allowed path session after record next := by
  have hsame : after.find? path = some record → Stepped allowed path session after record next := by
    intro hkept
    rw [hnext, Option.some.injEq] at hkept
    exact hkept ▸ .kept
  cases h with
  | @move actor _ hmove =>
    by_cases hactor : path = actor
    · have hown : Move path session after := hactor ▸ hmove
      exact .moved hown (hown.moved hfound hnext)
    · exact hsame (hmove.reworked.others path record hactor hfound)
  | settle _ _ => exact hsame hfound
  | @act action haction =>
    rcases act_found action hfound with hkept | ⟨content, rfl, hempty, hsealed⟩
    · exact hsame hkept
    · rw [hnext, Option.some.injEq] at hsealed
      exact hsealed ▸ .sealed haction hempty rfl

/-- A record that a step adds is untouched. -/
theorem Step.isFresh {next : Record} (h : Step allowed session after)
    (hnone : session.find? path = none) (hnext : after.find? path = some next) :
    session.IsFresh next := by
  have hnot : ¬ (session.find? path).isSome = true := by simp [hnone]
  cases h with
  | move hmove => exact (hmove.reworked.fresh path next hnext).resolve_left hnot
  | settle _ _ => exact absurd (hnone.symm.trans hnext) (by simp)
  | @act action _ => exact (act_fresh action hnext).resolve_left hnot

/-! ## Runs -/

theorem Moves.handles {busy : List String} (h : Moves busy session after) :
    after.handles = session.handles :=
  h.preserves (fun _ _ _ hmove heq => hmove.reworked.handles.trans heq) rfl

theorem pollHandle_steps (session : Session) (handle : Nat) :
    Steps allowed session (session.pollHandle handle).1 := by
  unfold pollHandle
  split
  · next request hhandle =>
    obtain ⟨hmoves, houtcome⟩ := poll_sound session request
    split
    · next after outcome heq =>
      rw [heq] at hmoves houtcome
      have hstill : after.handles[handle]? = some ⟨request, none⟩ := by
        rw [hmoves.handles]
        exact hhandle
      exact hmoves.steps.trans (.single (.settle hstill (houtcome _ rfl)))
    · next after heq =>
      rw [heq] at hmoves
      exact hmoves.steps
  · exact .refl

theorem pass_steps (handles : List Nat) (session : Session) :
    Steps allowed session (session.pass handles).1 := by
  induction handles generalizing session with
  | nil => exact .refl
  | cons handle rest ih => exact (pollHandle_steps session handle).trans (ih _)

theorem passes_steps (count : Nat) (session : Session) :
    Steps allowed session (passes count session).1 := by
  induction count generalizing session with
  | zero => exact .refl
  | succ count ih =>
    have hpass : Steps allowed session (session.pass (List.range session.handles.length)).1 :=
      pass_steps _ session
    unfold passes
    dsimp only
    split
    · exact hpass
    · exact hpass.trans (ih _)

/-- **A run takes steps.** -/
theorem run_steps (session : Session) : Steps allowed session session.run.1 :=
  passes_steps session.bound session

theorem perform_steps {command : Command} (h : command.Allowed allowed) (session : Session) :
    Steps allowed session (session.perform command) := by
  cases command with
  | act action => exact .single (.act h)
  | run => exact run_steps session
  | load specifier referrer => exact (Relation.ReflTransGen.single (.act h)).trans (run_steps _)

/-- **Commands take steps.** -/
theorem performAll_steps {commands : List Command}
    (h : ∀ command ∈ commands, command.Allowed allowed) (session : Session) :
    Steps allowed session (session.performAll commands) := by
  induction commands generalizing session with
  | nil => exact .refl
  | cons command rest ih =>
    exact (perform_steps (h command List.mem_cons_self) session).trans
      (ih (fun other hmem => h other (List.mem_cons_of_mem _ hmem)) _)

theorem performAll_concat {commands : List Command} {command : Command} :
    session.performAll (commands ++ [command]) = (session.performAll commands).perform command := by
  unfold performAll
  rw [List.foldl_append, List.foldl_cons, List.foldl_nil]

/-! ## Gates -/

theorem act_openGate_closed {name gate : String} :
    (session.act (.openGate name)).closed gate =
      if gate = name then false else session.closed gate :=
  rfl

/-- An action leaves a gate as it is, unless it opens or closes it. -/
theorem act_closed_cases (action : Action) (gate : String) :
    (session.act action).closed gate = session.closed gate ∨
      (action = .openGate gate ∧ (session.act action).closed gate = false) ∨
      (action = .closeGate gate ∧ (session.act action).closed gate = true) := by
  cases action with
  | request specifier referrer =>
    exact Or.inl (congrFun (grown_request session specifier _).closed gate)
  | openGate name =>
    rw [act_openGate_closed]
    by_cases hname : gate = name
    · exact Or.inr (Or.inl ⟨by rw [hname], if_pos hname⟩)
    · exact Or.inl (if_neg hname)
  | closeGate name =>
    by_cases hname : gate = name
    · exact Or.inr (Or.inr ⟨by rw [hname], if_pos hname⟩)
    · exact Or.inl (if_neg hname)
  | write path text => exact Or.inl rfl
  | register suffix loader =>
    rcases act_register_cases session suffix loader with heq | ⟨_, _, -, -, heq⟩ <;> rw [heq] <;>
      exact Or.inl rfl
  | sealSlot path content =>
    rcases act_sealSlot_cases session path content with heq | ⟨_, -, -, heq⟩ <;> rw [heq] <;>
      exact Or.inl rfl

theorem act_closed {action : Action} (h : action.keepsOpen = true) {gate : String}
    (hopen : session.closed gate = false) : (session.act action).closed gate = false := by
  rcases act_closed_cases action gate with hsame | ⟨-, hopened⟩ | ⟨rfl, -⟩
  · rw [hsame]
    exact hopen
  · exact hopened
  · exact absurd h (by simp [Action.keepsOpen])

/-- A closed gate stays closed until it is opened. -/
theorem act_closed_of_ne {action : Action} {gate : String} (h : action ≠ .openGate gate)
    (hclosed : session.closed gate = true) : (session.act action).closed gate = true := by
  rcases act_closed_cases action gate with hsame | ⟨hopens, -⟩ | ⟨-, hnow⟩
  · rw [hsame]
    exact hclosed
  · exact absurd hopens h
  · exact hnow

/-- A gate that is open stays open until it is closed from outside. -/
theorem Steps.gate_open (h : Steps (fun action => action.keepsOpen = true) session after)
    {gate : String} (hopen : session.closed gate = false) : after.closed gate = false := by
  induction h with
  | refl => exact hopen
  | tail _ hlast ih =>
    cases hlast with
    | move hmove =>
      rw [hmove.reworked.closed]
      exact ih
    | settle _ _ => exact ih
    | act haction => exact act_closed haction ih

/-! ## Handles -/

/-- What a handle says is true: its load is recorded, and its outcome is that of its load. -/
structure HandleMatches (session : Session) (handle : Handle) : Prop where
  recorded : ∀ path, handle.request = .load path → (session.find? path).isSome = true
  outcome : ∀ outcome, handle.outcome = some outcome →
    session.outcomeOf handle.request = some outcome

theorem HandleMatches.step {handle : Handle} (h : HandleMatches session handle)
    (hstep : Step allowed session after) : HandleMatches after handle :=
  ⟨fun path hrequest => hstep.recorded (h.recorded path hrequest),
    fun outcome houtcome => hstep.outcomeOf (h.outcome outcome houtcome)⟩

/-- A step settles one handle or adds one, and leaves the others. -/
theorem Step.mem_handles {handle : Handle} (h : Step allowed session after)
    (hmem : handle ∈ after.handles) : handle ∈ session.handles ∨
      (∃ request outcome, handle = ⟨request, some outcome⟩ ∧
        (⟨request, none⟩ : Handle) ∈ session.handles ∧
        session.outcomeOf request = some outcome) ∨
      ∃ specifier referrer, handle = ⟨(session.request specifier referrer).2.2, none⟩ ∧
        after.records = (session.request specifier referrer).1.records ∧
        after.failures = (session.request specifier referrer).1.failures := by
  cases h with
  | move hmove =>
    rw [hmove.reworked.handles] at hmem
    exact Or.inl hmem
  | @settle index request outcome hhandle houtcome =>
    have hchanged : handle ∈ session.handles.modify index
        fun entry => { entry with outcome := some outcome } := hmem
    obtain ⟨place, hplace⟩ := List.mem_iff_getElem?.mp hchanged
    rw [List.getElem?_modify] at hplace
    split at hplace
    · next hindex =>
      rw [← hindex, hhandle] at hplace
      obtain rfl := Option.some.inj hplace
      exact Or.inr (Or.inl ⟨request, outcome, rfl, List.mem_of_getElem? hhandle, houtcome⟩)
    · exact Or.inl (List.mem_of_getElem? (by simpa using hplace))
  | @act action _ =>
    cases action with
    | request specifier referrer =>
      have hadded : handle ∈ (session.request specifier
          (referrer.getD session.config.defaultReferrer)).1.handles ++
          [⟨(session.request specifier
            (referrer.getD session.config.defaultReferrer)).2.2, none⟩] := hmem
      rw [(grown_request session specifier _).handles] at hadded
      rcases List.mem_append.mp hadded with hold | hnew
      · exact Or.inl hold
      · exact Or.inr (Or.inr ⟨specifier, _, List.mem_singleton.mp hnew, rfl, rfl⟩)
    | register suffix loader =>
      rcases act_register_cases session suffix loader with heq | ⟨_, _, -, -, heq⟩
      · exact Or.inl (heq ▸ hmem)
      · rw [heq] at hmem
        exact Or.inl hmem
    | sealSlot path content =>
      rcases act_sealSlot_cases session path content with heq | ⟨_, -, -, heq⟩
      · exact Or.inl (heq ▸ hmem)
      · rw [heq] at hmem
        exact Or.inl hmem
    | _ => exact Or.inl hmem

/-- **Handles tell the truth.** -/
def HandlesMatch (session : Session) : Prop :=
  ∀ handle ∈ session.handles, HandleMatches session handle

theorem HandlesMatch.step (h : HandlesMatch session) (hstep : Step allowed session after) :
    HandlesMatch after := by
  intro handle hmem
  rcases hstep.mem_handles hmem with hold | ⟨request, outcome, rfl, hpending, houtcome⟩ |
    ⟨specifier, referrer, rfl, hrecords, -⟩
  · exact (h handle hold).step hstep
  · refine ⟨((h _ hpending).step hstep).recorded, fun ended hended => ?_⟩
    obtain rfl := Option.some.inj hended
    exact hstep.outcomeOf houtcome
  · refine ⟨fun path hrequest => ?_, fun outcome houtcome => absurd houtcome (by simp)⟩
    have hfind : after.find? path = (session.request specifier referrer).1.find? path := by
      unfold find?
      rw [hrecords]
    rcases request_cases session specifier referrer with ⟨-, hrefused⟩ | ⟨-, hload, hrecorded⟩
    · exact absurd (hrefused.symm.trans hrequest) (by simp)
    · obtain rfl := Request.load.inj (hload.symm.trans hrequest)
      rw [hfind]
      exact hrecorded

theorem handlesMatch_of_start {config : Config} {host : Host} {closed : String → Bool}
    (h : Steps allowed (start config host closed) session) : HandlesMatch session :=
  h.preserves (fun _ _ hstep hmatch => hmatch.step hstep)
    fun _ hmem => absurd hmem List.not_mem_nil

/-- A pending handle has no outcome. -/
theorem mem_pending {handle : Nat} : handle ∈ session.pending ↔
    ∃ request, session.handles[handle]? = some ⟨request, none⟩ := by
  unfold pending outcome?
  rw [List.mem_filter, List.mem_range]
  constructor
  · rintro ⟨hlt, hnone⟩
    rw [List.getElem?_eq_getElem hlt, Option.bind_some, Option.isNone_iff_eq_none] at hnone
    rw [List.getElem?_eq_getElem hlt]
    exact ⟨session.handles[handle].request, by rw [← hnone]⟩
  · rintro ⟨request, hhandle⟩
    refine ⟨?_, by rw [hhandle]; rfl⟩
    exact (List.getElem?_eq_some_iff.mp hhandle).1

end Session

end ScriptLink
