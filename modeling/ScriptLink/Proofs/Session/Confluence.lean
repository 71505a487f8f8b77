import ScriptLink.Proofs.Session.Agreement
import ScriptLink.Proofs.Session.Deadlock

/-!
# Schedules make no difference

Two sessions over the same texts may request modules in another order, with other gates closed at
other times and other runs in between. The loads in flight, who is polled first and when an
importer fails all differ. Once both have opened their gates and run, it cannot be told which was
which: a request ends the same way in both, and a module that both have run was run the same way.
Both sessions agree with `Session.Ends`, which speaks of neither.

* **`requestedPairs`** — the specifiers and referrers that commands request, one for each handle.
* **`PairEnds`** — how the request of a specifier and referrer ends.
* **`run_settles`** — after a run with all gates open, every handle has ended so.
* **`execute_of_log`** — every run in the log is the one that there can be of its module.
* **`schedule_independence`** — the law, for any two schedules.
-/

namespace ScriptLink

/-- The specifier and referrer that a command requests, if it requests any. -/
def Command.pair? (config : Config) : Command → Option (String × String)
  | act (.request specifier referrer) => some (specifier, referrer.getD config.defaultReferrer)
  | load specifier referrer => some (specifier, referrer.getD config.defaultReferrer)
  | _ => none

/-- What the commands request, in order: the handle with the same number stands for it. -/
def requestedPairs (config : Config) (commands : List Command) : List (String × String) :=
  commands.filterMap (Command.pair? config)

theorem Action.isDirect_of_schedules {action : Action} (h : action.schedules = true) :
    action.isDirect = true := by
  cases action <;> simp_all [Action.schedules, Action.isDirect]

/-- If nothing was put off, the map holds what has arrived, whatever stands in the slots. -/
theorem Linking.table_eq_arrivals {exports? : String → Option Content}
    {dependencies : List Dependency}
    (h : ∀ dependency ∈ dependencies, dependency.waiting ≠ .deferred) :
    table exports? dependencies = arrivals [] dependencies := by
  have hkept : ∀ entries, deferrals exports? entries dependencies = entries := by
    induction dependencies with
    | nil => exact fun _ => rfl
    | cons first rest ih =>
      intro entries
      have hfirst := h first List.mem_cons_self
      unfold deferrals
      rw [List.foldl_cons]
      split
      · next hdeferred => exact absurd hdeferred hfirst
      · exact ih (fun dependency hmem => h dependency (List.mem_cons_of_mem _ hmem)) entries
  rw [table_eq, hkept]

namespace Session

variable {session after last : Session} {config : Config} {host : Host}
  {closed : String → Bool}

/-! ## Handles and what they stand for -/

/-- The answer to the request of a specifier and referrer, with built-in loaders. -/
inductive AnswersPair : String × String → Request → Prop where
  | refused {specifier referrer : String} {failure : Failure}
      (hunknown : Loaders.builtIn.find? specifier = none) :
      AnswersPair (specifier, referrer) (.refused failure)
  | load {specifier referrer : String}
      (hknown : (Loaders.builtIn.find? specifier).isSome = true) :
      AnswersPair (specifier, referrer) (.load (Path.resolve referrer specifier))

theorem request_answersPair (hloaders : session.loaders = Loaders.builtIn)
    (specifier referrer : String) :
    AnswersPair (specifier, referrer) (session.request specifier referrer).2.2 := by
  rcases request_cases session specifier referrer with ⟨hunknown, heq⟩ | ⟨hknown, heq, -⟩
  · rw [heq]
    exact .refused (hloaders ▸ hunknown)
  · rw [heq]
    exact .load (hloaders ▸ hknown)

/-- Polling keeps every handle and what it stands for. -/
theorem Steps.map_request (h : Steps (fun _ => False) session after) :
    after.handles.map Handle.request = session.handles.map Handle.request := by
  induction h with
  | refl => rfl
  | tail _ hlast ih =>
    rw [← ih]
    cases hlast with
    | move hmove => rw [hmove.reworked.handles]
    | @settle handle request outcome hhandle _ =>
      show (List.modify _ _ _).map _ = _
      apply List.ext_getElem?
      intro place
      rw [List.getElem?_map, List.getElem?_modify, List.getElem?_map]
      by_cases hplace : handle = place
      · simp only [hplace, if_true, Option.map_eq_map, Option.map_map, Function.comp_def]
      · simp only [hplace, if_false, Option.map_eq_map, Option.map_id']
    | act hnever => exact hnever.elim

/-- What a command adds to the handles: one that stands for its request. -/
theorem perform_requests {command : Command}
    (h : command.Allowed fun action => action.schedules = true)
    (hloaders : session.loaders = Loaders.builtIn) :
    ∃ added, (session.perform command).handles.map Handle.request =
        session.handles.map Handle.request ++ added ∧
      List.Forall₂ AnswersPair (command.pair? session.config).toList added := by
  have hrequest : ∀ specifier referrer,
      (session.act (.request specifier referrer)).handles.map Handle.request =
        session.handles.map Handle.request ++
          [(session.request specifier (referrer.getD session.config.defaultReferrer)).2.2] := by
    intro specifier referrer
    show ((session.request specifier _).1.handles ++ _).map _ = _
    rw [(grown_request session specifier _).handles, List.map_append]
    rfl
  cases command with
  | run =>
    refine ⟨[], ?_, .nil⟩
    rw [List.append_nil]
    exact (run_steps session).map_request
  | load specifier referrer =>
    refine ⟨_, ?_, .cons (request_answersPair hloaders specifier _) .nil⟩
    rw [← hrequest specifier referrer]
    exact (run_steps _).map_request
  | act action =>
    cases action with
    | request specifier referrer =>
      exact ⟨_, hrequest specifier referrer,
        .cons (request_answersPair hloaders specifier _) .nil⟩
    | openGate gate => exact ⟨[], (List.append_nil _).symm, .nil⟩
    | closeGate gate => exact ⟨[], (List.append_nil _).symm, .nil⟩
    | write path text => exact absurd h (by simp [Command.Allowed, Action.schedules])
    | register suffix loader => exact absurd h (by simp [Command.Allowed, Action.schedules])
    | sealSlot path content => exact absurd h (by simp [Command.Allowed, Action.schedules])

/-- **Every handle stands for the request of its number.** -/
theorem performAll_requests {commands : List Command}
    (h : ∀ command ∈ commands, command.Allowed fun action => action.schedules = true)
    (hloaders : session.loaders = Loaders.builtIn) :
    ∃ added, (session.performAll commands).handles.map Handle.request =
        session.handles.map Handle.request ++ added ∧
      List.Forall₂ AnswersPair (requestedPairs session.config commands) added := by
  induction commands generalizing session with
  | nil => exact ⟨[], (List.append_nil _).symm, .nil⟩
  | cons command rest ih =>
    have hsteps := perform_steps (h command List.mem_cons_self) session
    obtain ⟨first, hfirst, hanswers⟩ := perform_requests (h command List.mem_cons_self) hloaders
    obtain ⟨later, hlater, hlateranswers⟩ :=
      @ih (session.perform command) (fun other hmem => h other (List.mem_cons_of_mem _ hmem))
        ((schedule_surroundings hsteps).2.trans hloaders)
    refine ⟨first ++ later, ?_, ?_⟩
    · rw [← List.append_assoc, ← hfirst]
      exact hlater
    · have hsplit : requestedPairs session.config (command :: rest) =
          (command.pair? session.config).toList ++ requestedPairs session.config rest := by
        unfold requestedPairs
        rw [List.filterMap_cons]
        cases command.pair? session.config <;> rfl
      rw [hsplit]
      rw [hsteps.config] at hlateranswers
      exact List.rel_append hanswers hlateranswers

/-- How the request of a specifier and referrer ends: with an error, if the suffix has no loader,
and otherwise as the load of the resolved path. -/
inductive PairEnds (config : Config) (host : Host) : String × String → Option Content → Prop where
  | refused {specifier referrer : String} (hunknown : Loaders.builtIn.find? specifier = none) :
      PairEnds config host (specifier, referrer) none
  | load {specifier referrer : String} {content : Option Content}
      (hknown : (Loaders.builtIn.find? specifier).isSome = true)
      (hends : Ends config host (Path.resolve referrer specifier) content) :
      PairEnds config host (specifier, referrer) content

theorem PairEnds.unique {pair : String × String} {first second : Option Content}
    (h1 : PairEnds config host pair first) (h2 : PairEnds config host pair second) :
    first = second := by
  cases h1 with
  | refused hunknown =>
    cases h2 with
    | refused _ => rfl
    | load hknown _ => exact absurd hunknown (Option.ne_none_iff_isSome.mpr hknown)
  | load hknown hends =>
    cases h2 with
    | refused hunknown => exact absurd hunknown (Option.ne_none_iff_isSome.mpr hknown)
    | load _ hother => exact hends.unique hother

/-! ## One schedule -/

section Schedule

variable {commands : List Command}
  (hallowed : ∀ command ∈ commands, command.Allowed fun action => action.schedules = true)
  (hfailures : host.failures = []) (hacyclic : AcyclicImports config host)

include hallowed hfailures hacyclic

/-- **After a run with all gates open, every request has ended as it must.** -/
theorem run_settles
    (hopen : ∀ gate, ((start config host closed).performAll commands).closed gate = false)
    {handle : Nat} {pair : String × String}
    (hpair : (requestedPairs config commands)[handle]? = some pair) :
    ∃ outcome, ((start config host closed).performAll commands).run.1.outcome? handle =
        some outcome ∧ PairEnds config host pair outcome.toOption := by
  have hsteps : ScheduleSteps (start config host closed)
      ((start config host closed).performAll commands) := performAll_steps hallowed _
  generalize hsession : (start config host closed).performAll commands = session at *
  have hafter : ScheduleSteps (start config host closed) session.run.1 :=
    hsteps.trans (run_steps _)
  -- the handle stands for the request of the pair
  obtain ⟨requests, hrequests, hanswers⟩ :=
    @performAll_requests (start config host closed) commands hallowed rfl
  rw [hsession] at hrequests
  have hall : session.run.1.handles.map Handle.request = requests :=
    (run_steps session).map_request.trans hrequests
  obtain ⟨request, hrequest, hanswer⟩ := forall₂_getElem? hanswers hpair
  rw [← hall, List.getElem?_map, Option.map_eq_some_iff] at hrequest
  obtain ⟨⟨request, outcome?⟩, hhandle, rfl⟩ := hrequest
  -- with all gates open it has an outcome, and that is the one of its load
  have hnone : session.run.1.pending = [] := by
    refine pending_eq_nil (hsteps.mono fun _ => Action.isDirect_of_schedules) fun gate => ?_
    exact Steps.gate_open (run_steps session) (hopen gate)
  cases outcome? with
  | none => exact absurd (mem_pending.mpr ⟨request, hhandle⟩) (hnone ▸ List.not_mem_nil)
  | some outcome =>
    refine ⟨outcome, by unfold outcome?; rw [hhandle]; rfl, ?_⟩
    have hmatch :=
      (handlesMatch_of_start hafter _ (List.mem_of_getElem? hhandle)).outcome outcome rfl
    cases hanswer with
    | refused hunknown =>
      obtain rfl := Option.some.inj hmatch
      exact .refused hunknown
    | load hknown => exact .load hknown ((agrees_of_start hacyclic hfailures hafter).ends hmatch)

end Schedule

/-- **Every run in the log is the one that there can be of its module.** -/
theorem execute_of_log (hfailures : host.failures = []) (hacyclic : AcyclicImports config host)
    (h : ScheduleSteps (start config host closed) last) {index : Nat} {wrapper : Wrapper}
    {dependencies : List (String × Content)}
    (hentry : last.log[index]? = some (.execute wrapper dependencies)) :
    ∃ linking, HandedOver config host wrapper.path linking ∧
      wrapper = linking.wrapper config wrapper.path ∧
      dependencies = Linking.arrivals [] linking.dependencies := by
  obtain ⟨linking, requested, executed, hran, hwrapper, rfl⟩ := ran_of_log h hentry
  obtain ⟨record, hfound, htask⟩ := hran.found
  have hover := handedOver_of_linking hran.reached
    (agrees_of_start hacyclic hfailures hran.reached) hfound htask hacyclic hran.ready
  exact ⟨linking, hover, hwrapper, Linking.table_eq_arrivals fun _ hmem =>
    hover.not_deferred hmem⟩

/-! ## Two schedules -/

/-- Two outcomes that are the same but for the errors are both contents or both errors. -/
theorem outcomes_cases {first second : Outcome} (h : first.toOption = second.toOption) :
    (∃ content, first = .ok content ∧ second = .ok content) ∨
      ∃ failure other, first = .error failure ∧ second = .error other := by
  cases first with
  | ok content =>
    cases second with
    | ok other =>
      obtain rfl : content = other := Option.some.inj h
      exact Or.inl ⟨content, rfl, rfl⟩
    | error failure => exact absurd h (by simp [Except.toOption])
  | error failure =>
    cases second with
    | ok content => exact absurd h (by simp [Except.toOption])
    | error other => exact Or.inr ⟨failure, other, rfl, rfl⟩

/-- **Schedules make no difference.** Take any texts and any host without failing gates, built-in
loaders, and imports without a cycle. Take any two sequences of requests, runs and changes to
gates, each from any gates at the start and such that all gates are open at the end, and a last
run of each. A specifier and referrer that both request end well in both, with the same content,
or with an error in both; so do all of them, if both request the same. A module that both run is
run with the same wrapper and the same map of dependencies, in the same order. -/
theorem schedule_independence (config : Config) (host : Host) (closed₁ closed₂ : String → Bool)
    (commands₁ commands₂ : List Command) (hfailures : host.failures = [])
    (hacyclic : AcyclicImports config host)
    (hallowed₁ : ∀ command ∈ commands₁,
      command.Allowed fun action => action.schedules = true)
    (hallowed₂ : ∀ command ∈ commands₂,
      command.Allowed fun action => action.schedules = true)
    (hopen₁ : ∀ gate, ((start config host closed₁).performAll commands₁).closed gate = false)
    (hopen₂ : ∀ gate, ((start config host closed₂).performAll commands₂).closed gate = false) :
    let last₁ := ((start config host closed₁).performAll commands₁).run.1
    let last₂ := ((start config host closed₂).performAll commands₂).run.1
    (∀ (handle₁ handle₂ : Nat) (pair : String × String),
      (requestedPairs config commands₁)[handle₁]? = some pair →
      (requestedPairs config commands₂)[handle₂]? = some pair →
      (∃ content, last₁.outcome? handle₁ = some (.ok content) ∧
        last₂.outcome? handle₂ = some (.ok content)) ∨
      ∃ failure₁ failure₂, last₁.outcome? handle₁ = some (.error failure₁) ∧
        last₂.outcome? handle₂ = some (.error failure₂)) ∧
    ∀ (index₁ index₂ : Nat) wrapper₁ wrapper₂ dependencies₁ dependencies₂,
      last₁.log[index₁]? = some (.execute wrapper₁ dependencies₁) →
      last₂.log[index₂]? = some (.execute wrapper₂ dependencies₂) →
      wrapper₁.path = wrapper₂.path → wrapper₁ = wrapper₂ ∧ dependencies₁ = dependencies₂ := by
  intro last₁ last₂
  constructor
  · intro handle₁ handle₂ pair hpair₁ hpair₂
    obtain ⟨outcome₁, houtcome₁, hends₁⟩ :=
      run_settles hallowed₁ hfailures hacyclic hopen₁ hpair₁
    obtain ⟨outcome₂, houtcome₂, hends₂⟩ :=
      run_settles hallowed₂ hfailures hacyclic hopen₂ hpair₂
    rcases outcomes_cases (hends₁.unique hends₂) with ⟨content, rfl, rfl⟩ |
      ⟨failure₁, failure₂, rfl, rfl⟩
    · exact Or.inl ⟨content, houtcome₁, houtcome₂⟩
    · exact Or.inr ⟨failure₁, failure₂, houtcome₁, houtcome₂⟩
  · intro index₁ index₂ wrapper₁ wrapper₂ dependencies₁ dependencies₂ hentry₁ hentry₂ hpath
    have hlast₁ : ScheduleSteps (start config host closed₁) last₁ :=
      (performAll_steps hallowed₁ _).trans (run_steps _)
    have hlast₂ : ScheduleSteps (start config host closed₂) last₂ :=
      (performAll_steps hallowed₂ _).trans (run_steps _)
    obtain ⟨linking₁, hover₁, hwrapper₁, rfl⟩ :=
      execute_of_log hfailures hacyclic hlast₁ hentry₁
    obtain ⟨linking₂, hover₂, hwrapper₂, rfl⟩ :=
      execute_of_log hfailures hacyclic hlast₂ hentry₂
    rw [hpath] at hover₁ hwrapper₁
    obtain rfl : linking₁ = linking₂ := hover₁.unique hover₂
    exact ⟨hwrapper₁.trans hwrapper₂.symm, rfl⟩

/-- A module and its import, requested in both orders: first with the text of the import held
back until both have been requested, then with all gates open and a run in between. -/
theorem two_orders_agree :
    let held : String → Bool := fun gate => gate == "fetch:b.js"
    let importerFirst := [Command.load "./a.js" none, .act (.request "./b.js" none),
      .act (.openGate "fetch:b.js")]
    let importFirst := [Command.load "./b.js" none, .act (.request "./a.js" none)]
    let session₁ := (start Config.default importingPair held).performAll importerFirst
    let session₂ := (start Config.default importingPair fun _ => false).performAll importFirst
    AcyclicImports Config.default importingPair ∧ (∀ gate, session₁.closed gate = false) ∧
    (∀ gate, session₂.closed gate = false) ∧
    ∃ content, session₁.run.1.outcome? 0 = some (.ok content) ∧
      session₂.run.1.outcome? 1 = some (.ok content) := by
  intro held importerFirst importFirst session₁ session₂
  have hacyclic : AcyclicImports Config.default importingPair :=
    importingPair_acyclic (fun _ _ => id) (by decide +kernel) (by decide +kernel)
  have hopen₁ : ∀ gate, session₁.closed gate = false := by
    intro gate
    let before := [Command.load "./a.js" none, .act (.request "./b.js" none)]
    have hbefore : ∀ command ∈ before, command.Allowed fun action => action.keepsOpen = true := by
      simp [before, Command.Allowed, Action.keepsOpen]
    have hsplit : session₁ = ((start Config.default importingPair held).performAll before).perform
        (.act (.openGate "fetch:b.js")) := @performAll_concat _ before _
    rw [hsplit, perform, act_openGate_closed]
    split
    · rfl
    · next hother => exact (performAll_steps hbefore _).gate_open (beq_false_of_ne hother)
  have hopen₂ : ∀ gate, session₂.closed gate = false := by
    have hkeeps : ∀ command ∈ importFirst,
        command.Allowed fun action => action.keepsOpen = true := by
      simp [importFirst, Command.Allowed, Action.keepsOpen]
    exact fun gate => (performAll_steps hkeeps _).gate_open rfl
  have hlaw := schedule_independence Config.default importingPair held (fun _ => false)
    importerFirst importFirst rfl hacyclic
    (by simp [importerFirst, Command.Allowed, Action.schedules])
    (by simp [importFirst, Command.Allowed, Action.schedules]) hopen₁ hopen₂
  refine ⟨hacyclic, hopen₁, hopen₂, ?_⟩
  have hended : (session₁.run.1.outcome? 0).any Except.isOk = true := by decide +kernel
  rcases hlaw.1 0 1 ("./a.js", Config.default.defaultReferrer) rfl rfl with hboth |
    ⟨failure, _, hfailed, -⟩
  · exact hboth
  · rw [hfailed] at hended
    exact absurd hended (by simp [Except.isOk, Except.toBool])

end Session

end ScriptLink
