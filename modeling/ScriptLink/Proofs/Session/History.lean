import ScriptLink.Proofs.Session.Deferral
import ScriptLink.Proofs.Session.Once

/-!
# What a session has been through

Some laws speak of two moments at once: what a module finds when it is run depends on the wait
graph at the time when it asked for its dependencies. Here a state of a session is traced back to
the moments that made it what it is.

* **`Steps.find_push`** — every call of the log was made by one step, in a session whose log was
  as long as the place of the call.
* **`Step.pushed_execute`** — a call that runs a module is made by handing the module over.
* **`Asked`** — the moment at which a module asked for its dependencies: the text that it had, and
  what the wait graph said of each of them. `asked_of_start` finds it for every module in its
  linking phase.
* **`hasRun_of_start`** — a script or component whose load is past its run has been run.
* **`Steps.fetch_held`** — a text that a module has is one that the host began with or was given.
-/

namespace ScriptLink

namespace Session

variable {allowed : Action → Prop} {base requested session after last : Session} {path : String}
  {record : Record}

/-! ## The step behind a call -/

theorem Step.log_cases (h : Step allowed session after) :
    after.log = session.log ∨ ∃ call, after.log = session.log.push call := by
  cases h with
  | move hmove =>
    rcases hmove.log_cases with hsame | ⟨call, hpush, -⟩
    · exact Or.inl hsame
    · exact Or.inr ⟨call, hpush⟩
  | settle _ _ => exact Or.inl rfl
  | act _ => exact Or.inl (act_log _)

/-- **Every call of the log was made by one step.** -/
theorem Steps.find_push (h : Steps allowed session last) {index : Nat} {call : HostCall}
    (hlow : session.log.size ≤ index) (hentry : last.log[index]? = some call) :
    ∃ before after, Steps allowed session before ∧ Step allowed before after ∧
      Steps allowed after last ∧ before.log.size = index ∧
      after.log = before.log.push call := by
  induction h with
  | refl =>
    have hlt := (Array.getElem?_eq_some_iff.mp hentry).1
    omega
  | @tail between last hsteps hlast ih =>
    have hearlier : between.log[index]? = some call →
        ∃ before after, Steps allowed session before ∧ Step allowed before after ∧
          Steps allowed after last ∧ before.log.size = index ∧
          after.log = before.log.push call := by
      intro hold
      obtain ⟨before, after, hbefore, hstep, hafter, hpush⟩ := ih hold
      exact ⟨before, after, hbefore, hstep, hafter.tail hlast, hpush⟩
    rcases hlast.log_cases with hsame | ⟨made, hpush⟩
    · exact hearlier (hsame ▸ hentry)
    · rw [hpush, Array.getElem?_push] at hentry
      split at hentry
      · next hindex =>
        obtain rfl := Option.some.inj hentry
        exact ⟨between, last, hsteps, hlast, .refl, hindex.symm, hpush⟩
      · exact hearlier hentry

theorem push_ne_self {log : Array HostCall} {call : HostCall} : log ≠ log.push call := by
  intro heq
  have hsize := congrArg Array.size heq
  rw [Array.size_push] at hsize
  omega

/-- **A call that runs a module is made by handing the module over.** -/
theorem Step.pushed_execute {wrapper : Wrapper} {dependencies : List (String × Content)}
    (h : Step allowed session after)
    (hlog : after.log = session.log.push (.execute wrapper dependencies)) :
    ∃ record linking, session.find? wrapper.path = some record ∧
      record.task = .linking linking ∧ linking.isWaiting = false ∧
      dependencies = Linking.table session.exports? linking.dependencies ∧
      wrapper = linking.wrapper session.config wrapper.path ∧
      after = session.execute wrapper.path linking := by
  -- a step that leaves the log alone is not the one
  have hnot : after.log ≠ session.log := fun hsame => push_ne_self (hsame.symm.trans hlog)
  cases h with
  | settle _ _ => exact absurd rfl hnot
  | act _ => exact absurd (act_log _) hnot
  | @move actor _ hmove =>
    rcases hmove with hturn | hlook
    · cases hturn with
      | @call record made task hfound hcalls =>
        have hmade : made = .execute wrapper dependencies := (Array.push_eq_push.mp hlog).1
        subst hmade
        cases hcalls
      | link hfound htask _ _ _ => exact absurd (grown_dependAll actor _ session).log hnot
      | @execute record linking hfound htask hready =>
        obtain ⟨hwrapper, htable⟩ := HostCall.execute.inj (Array.push_eq_push.mp hlog).1
        have hpath : actor = wrapper.path := congrArg Wrapper.path hwrapper
        subst hpath
        exact ⟨record, linking, hfound, htask, hready, htable.symm, hwrapper.symm, rfl⟩
      | follow _ _ _ _ => exact absurd (grown_request session _ actor).log hnot
      | _ => exact absurd rfl hnot
    · cases hlook with
      | note _ _ _ => exact absurd rfl hnot

/-! ## Modules that have been run -/

end Session

/-- Whether a load is past the hand-over to the host, and has not failed. -/
def Task.isPastRun : Task → Bool
  | .executing _ _ _ | .styling _ _ _ _ | .settled (.ok _) => true
  | _ => false

namespace Session

variable {allowed : Action → Prop} {base requested session after last : Session} {path : String}
  {record : Record}

/-- A call of the log runs the module at `path`. -/
def RunInLog (session : Session) (path : String) : Prop :=
  ∃ (place : Nat) (wrapper : Wrapper) (dependencies : List (String × Content)),
    session.log[place]? = some (.execute wrapper dependencies) ∧ wrapper.path = path

theorem Step.log_kept (h : Step allowed session after) {place : Nat} {call : HostCall}
    (hentry : session.log[place]? = some call) : after.log[place]? = some call := by
  rcases h.log_cases with hsame | ⟨made, hpush⟩
  · rw [hsame]
    exact hentry
  · have hlt := (Array.getElem?_eq_some_iff.mp hentry).1
    rw [hpush, Array.getElem?_push, if_neg (Nat.ne_of_lt hlt)]
    exact hentry

theorem RunInLog.step (h : RunInLog session path) (hstep : Step allowed session after) :
    RunInLog after path := by
  obtain ⟨place, wrapper, dependencies, hentry, hpath⟩ := h
  exact ⟨place, wrapper, dependencies, hstep.log_kept hentry, hpath⟩

/-- What a load ends with comes from a run, unless the module has no script. -/
theorem Yields.isPastRun {content : Content} (h : Yields session record content)
    (hfits : record.task.Fits record.loader) (hreads : record.loader.readsText = true) :
    record.task.isPastRun = true := by
  cases h with
  | echo _ hloader =>
    rw [hloader] at hreads
    exact absurd hreads (by simp [Loader.readsText])
  | script htask _ => rw [htask]; rfl
  | component htask _ _ _ => rw [htask]; rfl
  | styled htask _ _ => rw [htask]; rfl
  | stylesheet htask _ =>
    rw [htask] at hfits
    rw [hfits] at hreads
    exact absurd hreads (by simp [Loader.readsText])
  | custom htask _ _ _ =>
    rw [htask] at hfits
    rw [hfits] at hreads
    exact absurd hreads (by simp [Loader.readsText])
  | following htask _ =>
    rw [htask] at hfits
    have hdelegates : record.loader.delegates = true := hfits
    cases hloader : record.loader <;> simp_all [Loader.delegates, Loader.readsText]

/-- A script or component is past its run only if the log says so. -/
def HasRun (session : Session) (path : String) (record : Record) : Prop :=
  record.loader.readsText = true → record.task.isPastRun = true → RunInLog session path

theorem Moved.hasRun {next : Record} (h : Moved path session after record next)
    (hstep : Step allowed session after) (hfits : record.task.Fits record.loader)
    (hrun : HasRun session path record) : HasRun after path next := by
  intro hreads hpast
  have hkept : record.task.isPastRun = true → RunInLog after path :=
    fun hbefore => (hrun (h.loader ▸ hreads) hbefore).step hstep
  cases h with
  | call hcalls =>
    refine hkept ?_
    cases hcalls with
    | firstStyle htask _ _ => rw [htask]; rfl
    | nextStyle htask _ => rw [htask]; rfl
    | _ => exact absurd hpast (by simp [Task.isPastRun])
  | @execute linking htask _ hafter =>
    refine ⟨session.log.size, linking.wrapper session.config path,
      Linking.table session.exports? linking.dependencies, ?_, rfl⟩
    rw [hafter]
    exact Array.getElem?_push_size
  | resolve hyields _ => exact hkept (hyields.isPastRun hfits hreads)
  | fill _ _ _ _ => exact hkept hpast
  -- no other move ends past the run
  | _ => exact absurd hpast (by simp [Task.isPastRun])

/-- **A script or component that is past its run has been run.** -/
theorem hasRun_of_start {config : Config} {host : Host} {closed : String → Bool}
    (h : Steps allowed (start config host closed) session) :
    ∀ path record, session.find? path = some record → HasRun session path record := by
  induction h with
  | refl => exact fun _ _ hfound => absurd hfound (by simp [start, find?])
  | tail hsteps hlast ih =>
    have hfit := tasksFit_of_start hsteps
    refine hlast.forall_records ?_ ?_ ?_ ?_ ih
    · exact fun path record _ hold hreads hpast => (hold hreads hpast).step hlast
    · intro path record hfresh hreads hpast
      rw [hfresh.2.1] at hpast
      exact absurd hpast (by simp [Task.isPastRun])
    · exact fun path record _ _ _ hold hreads hpast => (hold hreads hpast).step hlast
    · exact fun path record next _ hfound hmoved hold =>
        hmoved.hasRun hlast (hfit path record hfound) hold

/-! ## The moment at which a module asked -/

/-- How a dependency stands that was asked for in `requested`: it was put off exactly if it led
to the importer then, and in that case it is still behind it; otherwise it was refused exactly if
its suffix had no loader then. -/
structure Judged (path : String) (requested session : Session) (specifier : String)
    (dependency : Dependency) : Prop where
  path_eq : dependency.path = Path.resolve path specifier
  deferred_iff : dependency.waiting = .deferred ↔
    requested.waits.leads dependency.path path = true
  behind : dependency.waiting = .deferred → Behind session path dependency.path
  refused_iff : dependency.waiting ≠ .deferred →
    ((∃ failure, dependency.waiting = .awaited (.refused failure)) ↔
      requested.loaders.find? specifier = none)

/-- The module at `path`, with this loader, asked for its dependencies in `requested` and has been
in its linking phase since. -/
structure Asked (allowed : Action → Prop) (base requested session : Session) (path : String)
    (loader : Loader) (linking : Linking) : Prop where
  reached : Steps allowed base requested
  fetching : ∃ record, requested.find? path = some record ∧ record.task = .fetching ∧
    record.loader = loader
  text : ∃ text, requested.host.fetch path = .ok text ∧
    transform requested.config.exportsName (loader.take text).script = .ok linking.script ∧
    linking.requests =
      Linking.requestsOf (loader.take text).markers linking.script.imports ∧
    linking.component = (loader.take text).component
  onward : Steps allowed requested session
  since : Steps allowed
    (requested.linked path linking.script linking.requests linking.component) session
  judged : List.Forall₂ (Judged path requested session) linking.requests.paths
    linking.dependencies

theorem Asked.step {loader : Loader} {linking : Linking}
    (h : Asked allowed base requested session path loader linking)
    (hopen : NotEndedWell session path) (hstep : Step allowed session after) :
    Asked allowed base requested after path loader linking :=
  ⟨h.reached, h.fetching, h.text, h.onward.tail hstep, h.since.tail hstep,
    h.judged.imp fun _ _ hjudged =>
    ⟨hjudged.path_eq, hjudged.deferred_iff,
      fun hdeferred => (hjudged.behind hdeferred).step hopen hstep, hjudged.refused_iff⟩⟩

theorem Asked.mono {more : Action → Prop} {loader : Loader} {linking : Linking}
    (h : Asked allowed base requested session path loader linking)
    (hsub : ∀ action, allowed action → more action) :
    Asked more base requested session path loader linking :=
  ⟨h.reached.mono hsub, h.fetching, h.text, h.onward.mono hsub, h.since.mono hsub, h.judged⟩

theorem Gathered.judged {specifiers : List String} {dependencies noted : List Dependency}
    (hgathered : Gathered session dependencies noted)
    (h : List.Forall₂ (Judged path requested after) specifiers dependencies) :
    List.Forall₂ (Judged path requested after) specifiers noted := by
  refine hgathered.forall₂ ?_ h
  intro specifier dependency request content hjudged hwaiting houtcome
  refine ⟨hjudged.path_eq, ?_, fun hdeferred => absurd hdeferred (by simp), fun _ => ?_⟩
  · rw [← hjudged.deferred_iff, hwaiting]
    simp
  · -- what has arrived was not refused, since a refusal is no content
    rw [← hjudged.refused_iff (by rw [hwaiting]; simp), hwaiting]
    refine iff_of_false (by simp) ?_
    rintro ⟨failure, hrefused⟩
    rw [Waiting.awaited.inj hrefused] at houtcome
    exact absurd houtcome (by simp [Session.outcomeOf])

/-- The first judgement is the answer that the module got. -/
theorem Answer.judged {importer specifier : String} {mid : Session} {dependency : Dependency}
    (h : Answer importer session mid specifier dependency) (hmatch : WaitsMatch session)
    (hlinks : LinksMatch session) (hopen : session.outcomeOf (.load importer) = none)
    (hstep : Step allowed session after) :
    Judged importer session after specifier dependency := by
  cases h with
  | deferred hleads =>
    refine ⟨rfl, iff_of_true rfl hleads, fun _ => ?_, fun hnot => absurd rfl hnot⟩
    have hbehind := behind_of_leads hmatch hlinks hopen (WaitGraph.leads_iff_leads.mp hleads)
    refine hbehind.step (fun content hcontent => ?_) hstep
    exact absurd (hopen.symm.trans hcontent) (by simp)
  | refused hfree hunknown =>
    exact ⟨rfl, by simp [hfree], fun hdeferred => absurd hdeferred (by simp),
      fun _ => iff_of_true ⟨_, rfl⟩ hunknown⟩
  | recorded hfree hknown _ =>
    exact ⟨rfl, by simp [hfree], fun hdeferred => absurd hdeferred (by simp),
      fun _ => iff_of_false (by simp) (Option.ne_none_iff_isSome.mpr hknown)⟩

/-- There is a moment at which the module asked, if it is in its linking phase. -/
def HasAsked (allowed : Action → Prop) (base session : Session) (path : String)
    (record : Record) : Prop :=
  ∀ linking, record.task = .linking linking →
    ∃ requested, Asked allowed base requested session path record.loader linking

/-- **Every module in its linking phase has asked for its dependencies at some moment**, and they
are judged by the wait graph of that moment. -/
theorem asked_of_start {config : Config} {host : Host} {closed : String → Bool}
    (h : Steps allowed (start config host closed) session) :
    ∀ path record, session.find? path = some record →
      HasAsked allowed (start config host closed) session path record := by
  induction h with
  | refl => exact fun _ _ hfound => absurd hfound (by simp [start, find?])
  | @tail session after hsteps hlast ih =>
    have hkeep : ∀ path record, session.find? path = some record →
        HasAsked allowed (start config host closed) session path record →
        HasAsked allowed (start config host closed) after path record := by
      intro path record hfound hold linking htask
      obtain ⟨requested, hasked⟩ := hold linking htask
      exact ⟨requested,
        hasked.step (notEndedWell_of_task hfound (by rw [htask]; rfl)) hlast⟩
    refine hlast.forall_records hkeep ?_ ?_ ?_ ih
    · intro path record hfresh linking htask
      rw [hfresh.2.1] at htask
      exact absurd htask (by simp)
    · exact fun path record _ hfound _ hold => hkeep path record hfound hold
    · intro path record next hmove hfound hmoved hold linking htask
      cases hmoved with
      | call hcalls => exact absurd htask (hcalls.not_linking linking).2
      | link hfetching _ hfetch hscript hrequests hafter =>
        -- this is the moment at which the module asks
        obtain rfl := Task.linking.inj htask
        have hopen : session.outcomeOf (.load path) = none := by
          show (session.find? path).bind _ = none
          rw [hfound, Option.bind_some, hfetching]
          rfl
        refine ⟨session, hsteps, ⟨record, hfound, hfetching, rfl⟩,
          ⟨_, hfetch, hscript, hrequests, rfl⟩, .single hlast, ?_, ?_⟩
        · rw [hafter]
          exact .refl
        · exact (dependAll_answers session path _).imp fun _ _ hanswer =>
            hanswer.judged (waitsMatch_of_start hsteps) (linksMatch_of_start hsteps) hopen hlast
      | fill hcustom _ _ _ => exact absurd (hcustom.symm.trans htask) (by simp)
      | note hlinking hgathered =>
        -- the moment stays the same, only the dependencies stand differently now
        obtain rfl := Task.linking.inj htask
        obtain ⟨requested, hasked⟩ := hkeep path record hfound hold _ hlinking
        exact ⟨requested, hasked.reached, hasked.fetching, hasked.text, hasked.onward,
          hasked.since, hgathered.judged hasked.judged⟩
      | _ => exact absurd htask (by simp)

/-! ## Texts -/

theorem lookup_filter_ne {entries : List (String × String)} {name other : String}
    (hne : other ≠ name) :
    (entries.filter fun entry => entry.1 != name).lookup other = entries.lookup other := by
  induction entries with
  | nil => rfl
  | cons entry rest ih =>
    obtain ⟨known, text⟩ := entry
    rw [List.filter_cons, List.lookup_cons]
    by_cases hknown : known = name
    · subst hknown
      simp only [bne_self_eq_false, Bool.false_eq_true, ↓reduceIte, ih,
        beq_false_of_ne hne]
    · have hkept : (known != name) = true := by simpa using hknown
      simp only [hkept, ↓reduceIte, List.lookup_cons, ih]

theorem fetch_write (host : Host) (name text : String) :
    (host.write name text).fetch path = if path = name then .ok text else host.fetch path := by
  unfold Host.fetch Host.write
  dsimp only
  rw [List.lookup_cons]
  by_cases hpath : path = name
  · simp [hpath]
  · rw [beq_false_of_ne hpath, if_neg hpath, lookup_filter_ne hpath]

theorem Steps.config (h : Steps allowed session after) : after.config = session.config := by
  induction h with
  | refl => rfl
  | tail _ hlast ih =>
    refine Eq.trans ?_ ih
    cases hlast with
    | move hmove => exact hmove.reworked.config
    | settle _ _ => rfl
    | act _ => exact act_config _

/-- **A text that a module has is one that the host began with or that was written.** -/
theorem Steps.fetch_held {held : String → String → Prop}
    (hwritten : ∀ name text, allowed (.write name text) → held name text)
    (hbase : ∀ name text, session.host.fetch name = .ok text → held name text)
    (h : Steps allowed session after) {text : String} (hfetch : after.host.fetch path = .ok text) :
    held path text := by
  induction h generalizing path text with
  | refl => exact hbase path text hfetch
  | tail _ hlast ih =>
    cases hlast with
    | move hmove =>
      rw [hmove.reworked.host] at hfetch
      exact ih hfetch
    | settle _ _ => exact ih hfetch
    | @act action haction =>
      by_cases hwrite : ∃ name content, action = .write name content
      · obtain ⟨name, content, rfl⟩ := hwrite
        have hnew : (Host.write _ name content).fetch path = .ok text := hfetch
        rw [fetch_write] at hnew
        split at hnew
        · next hname =>
          obtain rfl := Except.ok.inj hnew
          exact hname ▸ hwritten name content haction
        · exact ih hnew
      · rw [act_host fun name content heq => hwrite ⟨name, content, heq⟩] at hfetch
        exact ih hfetch

end Session

end ScriptLink
