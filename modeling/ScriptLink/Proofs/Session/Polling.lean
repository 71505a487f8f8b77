import ScriptLink.Proofs.Session.Turn

/-!
# Polling makes moves

`pollFor` is shown to do nothing but moves, and to answer nothing but outcomes that the
session has. Its recursion is bounded by a count; nothing here depends on how large that is.

* **`Sound busy poll`** — what a poll may be relied on for: it moves modules outside of `busy`
  only, and an outcome that it answers is the outcome of the load in the session it returns.
* **`gather_sound`** — polling the dependencies of a module leads to a failure that one of them
  has, or to a list in which those that have arrived are noted.
* **`advance_way`** — the ways through one step of a load, with what the polls on each of them
  answer (`Way`). What a step keeps, and where it leaves a load, is shown by these.
* **`advance_sound`** — one step of a load: first others move, while it is their turn, and
  then the load itself.
* **`pollFor_sound`** — polling is sound, by induction on the count.
-/

namespace ScriptLink

namespace Session

variable {session after : Session} {path : String} {record : Record} {busy : List String}
  {poll : String → Session → Session × Option Outcome}

/-- `poll` moves modules outside of `busy`, and answers outcomes that loads have. -/
def Sound (busy : List String) (poll : String → Session → Session × Option Outcome) : Prop :=
  ∀ path session, Moves busy session (poll path session).1 ∧
    ∀ outcome, (poll path session).2 = some outcome →
      (poll path session).1.outcomeOf (.load path) = some outcome

theorem pollRequest_sound (hpoll : Sound busy poll) (session : Session) (request : Request) :
    Moves busy session (pollRequest poll session request).1 ∧
      ∀ outcome, (pollRequest poll session request).2 = some outcome →
        (pollRequest poll session request).1.outcomeOf request = some outcome := by
  cases request with
  | refused failure => exact ⟨.refl, fun outcome h => h⟩
  | load path => exact hpoll path session

/-! ## Gathering -/

/-- What gathering the dependencies of a module amounts to. -/
def GatherResult (session : Session) (dependencies : List Dependency) :
    Except Failure (List Dependency) → Prop
  | .error failure => ∃ dependency ∈ dependencies, ∃ request,
      dependency.waiting = .awaited request ∧
      session.outcomeOf request = some (.error failure)
  | .ok noted => Gathered session dependencies noted

/-- A dependency that stays as it is may be put in front of what has been gathered. -/
theorem GatherResult.skip {dependency : Dependency} {rest : List Dependency}
    {result : Except Failure (List Dependency)} (h : GatherResult session rest result) :
    GatherResult session (dependency :: rest) (result.map (dependency :: ·)) := by
  cases result with
  | error failure =>
    obtain ⟨failed, hmem, hfailed⟩ := h
    exact ⟨failed, List.mem_cons_of_mem _ hmem, hfailed⟩
  | ok noted => exact List.Forall₂.cons (Or.inl rfl) h

theorem gather_sound (hpoll : Sound busy poll) (dependencies : List Dependency)
    (session : Session) :
    Moves busy session (gather poll session dependencies).1 ∧
      GatherResult (gather poll session dependencies).1 dependencies
        (gather poll session dependencies).2 := by
  induction dependencies generalizing session with
  | nil => exact ⟨.refl, List.Forall₂.nil⟩
  | cons dependency rest ih =>
    unfold gather
    split
    · next request hwaiting =>
      have hrequest := pollRequest_sound hpoll session request
      split
      · next mid failure heq =>
        rw [heq] at hrequest
        exact ⟨hrequest.1, dependency, List.mem_cons_self, request, hwaiting,
          hrequest.2 _ rfl⟩
      · next mid content heq =>
        rw [heq] at hrequest
        obtain ⟨hmoves, hresult⟩ := ih mid
        refine ⟨hrequest.1.trans hmoves, ?_⟩
        have harrived := hmoves.outcomeOf (hrequest.2 _ rfl)
        -- the dependency was polled first; its outcome is still there after the others
        dsimp only
        cases hrest : (gather poll mid rest).2 with
        | error failure =>
          rw [hrest] at hresult
          obtain ⟨failed, hmem, hfailed⟩ := hresult
          exact ⟨failed, List.mem_cons_of_mem _ hmem, hfailed⟩
        | ok noted =>
          rw [hrest] at hresult
          exact List.Forall₂.cons (Or.inr ⟨request, content, hwaiting, harrived, rfl⟩) hresult
      · next mid heq =>
        rw [heq] at hrequest
        obtain ⟨hmoves, hresult⟩ := ih mid
        exact ⟨hrequest.1.trans hmoves, hresult.skip⟩
    · obtain ⟨hmoves, hresult⟩ := ih session
      exact ⟨hmoves, hresult.skip⟩

/-! ## One step -/

/-- What one step of the load of `path` amounts to: others move, then the module may look at
its dependencies, and then the load takes its turn, if there is a step to take. -/
def Advanced (busy : List String) (path : String) (session : Session) : Progress → Prop
  | (after, progressed) => ∃ mid looked, Moves (path :: busy) session mid ∧
      (looked = mid ∨ Look path mid looked) ∧
      if progressed then Relation.TransGen (Turn path) looked after else after = looked

/-- Noting arrivals first makes no difference to the hand-over to the host. -/
theorem execute_setTask {task : Task} {linking : Linking} :
    (session.setTask path task).execute path linking = session.execute path linking := by
  have hexports : (session.setTask path task).exports? = session.exports? := by
    funext other
    unfold exports?
    rw [find?_setTask]
    split
    · cases session.find? other <;> rfl
    · rfl
  have hrecords : ∀ task' : Task,
      ((session.setTask path task).setTask path task').records =
        (session.setTask path task').records := by
    intro task'
    simp only [setTask, update, List.map_map]
    refine List.map_congr_left fun record _ => ?_
    by_cases hpath : record.path = path <;> simp [hpath]
  rw [execute_eq, execute_eq, hexports]
  exact congrArg (fun records => { session.execute path linking with records := records })
    (hrecords _)

theorem pass?_eq_none_iff {call : HostCall} :
    session.pass? call = none ↔ session.closed call.gate = true := by
  unfold pass?
  split
  · next hclosed => exact ⟨fun _ => hclosed, fun _ => rfl⟩
  · next hclosed => split <;> simp [hclosed]

/-! The endings of a load. -/

theorem resolve_turn {content : Content} (hfound : session.find? record.path = some record)
    (hyields : Yields session record content) :
    Turn record.path session (session.resolve record.path content) := by
  unfold resolve
  rw [hfound, Option.bind_some]
  cases hslot : record.slot with
  | empty => exact Turn.resolve hfound hyields hslot
  | sealed old => exact Turn.raise hfound (.duplicate hyields (by rw [hslot]; simp))

theorem finish_turn {exports : Content} {template : Option String}
    (hfound : session.find? record.path = some record)
    (hyields : ∀ content, Component.withTemplate? template exports = some content →
      Yields session record content)
    (hraises : Component.withTemplate? template exports = none →
      Raises session record (.invalidComponent record.path)) :
    Turn record.path session (session.finish record.path exports template) := by
  unfold finish
  cases template with
  | none => exact resolve_turn hfound (hyields _ rfl)
  | some template =>
    simp only [Component.withTemplate?] at hyields hraises
    dsimp only
    split
    · next content hattach => exact resolve_turn hfound (hyields content hattach)
    · next hattach => exact Turn.raise hfound (hraises hattach)

/-! The steps of a load, one for each kind of task that has one. -/

theorem begin_turn (hfound : session.find? record.path = some record)
    (htask : record.task = .start) :
    Turn record.path session (session.begin record.path record.loader) := by
  unfold begin
  cases hloader : record.loader with
  | script => exact Turn.call hfound (.fetch htask (by rw [hloader]; rfl))
  | component => exact Turn.call hfound (.fetch htask (by rw [hloader]; rfl))
  | stylesheet => exact Turn.call hfound (.stylesheet htask hloader)
  | echo => exact resolve_turn hfound (.echo htask hloader)
  | custom loader => exact Turn.call hfound (.custom htask hloader)

theorem linkText_eq (loader : Loader) (text : String) :
    session.linkText path loader text = session.link path (loader.take text).script
      (loader.take text).markers (loader.take text).component := by
  cases loader <;> rfl

theorem linkText_turn {text : String} (hfound : session.find? record.path = some record)
    (htask : record.task = .fetching)
    (hpass : session.pass? (.fetch record.path) = some (.ok ()))
    (hfetch : session.host.fetch record.path = .ok text) :
    Turn record.path session (session.linkText record.path record.loader text) := by
  rw [linkText_eq]
  unfold link
  split
  · next error hscript => exact Turn.raise hfound (.transpile htask hpass hfetch hscript)
  · next script hscript => exact Turn.link hfound htask hpass hfetch hscript

theorem afterExecute_turn {wrapper : Wrapper} {dependencies : List (String × Content)}
    {component : Option Component} (hfound : session.find? record.path = some record)
    (htask : record.task = .executing wrapper dependencies component)
    (hpass : session.pass? (.execute wrapper dependencies) = some (.ok ())) :
    Turn record.path session
      (session.afterExecute record.path (session.host.execute wrapper) component) := by
  unfold afterExecute
  cases component with
  | none => exact resolve_turn hfound (.script htask hpass)
  | some component =>
    dsimp only
    unfold styleNext
    split
    · next hstyles =>
      exact finish_turn hfound (fun _ hattach => .component htask hpass hstyles hattach)
        (fun hattach => .bareComponent htask hpass hstyles hattach)
    · next css later hstyles =>
      exact Turn.call hfound (.firstStyle htask hpass hstyles)

theorem styleNext_turn {css : String} {later : List String} {exports : Content}
    {template : Option String} (hfound : session.find? record.path = some record)
    (htask : record.task = .styling css later exports template)
    (hpass : session.pass? (.style css) = some (.ok ())) :
    Turn record.path session (session.styleNext record.path later exports template) := by
  unfold styleNext
  cases later with
  | nil =>
    exact finish_turn hfound (fun _ hattach => .styled htask hpass hattach)
      (fun hattach => .styledComponent htask hpass hattach)
  | cons next later => exact Turn.call hfound (.nextStyle htask hpass)

theorem answer_turn {loader : CustomLoader} (hfound : session.find? record.path = some record)
    (htask : record.task = .customizing loader)
    (hpass : session.pass? (.custom record.path) = some (.ok ())) :
    Turn record.path session (session.answer record.path loader) := by
  unfold answer
  split
  · next target _ htarget => exact Turn.follow hfound htask hpass htarget
  · next htarget hfailure =>
    exact Turn.raise hfound (.custom htask hpass htarget hfailure)
  · next message htarget hfailure =>
    exact Turn.raise hfound (.custom htask hpass htarget hfailure)
  · next htarget hfailure => exact resolve_turn hfound (.custom htask hpass htarget hfailure)

theorem customize_turns {loader : CustomLoader}
    (hfound : session.find? record.path = some record)
    (htask : record.task = .customizing loader)
    (hpass : session.pass? (.custom record.path) = some (.ok ())) :
    Relation.TransGen (Turn record.path) session (session.customize record.path loader) := by
  unfold customize
  split
  · exact .single (answer_turn hfound htask hpass)
  · next content hvalue =>
    rw [hfound, Option.bind_some]
    cases hslot : record.slot with
    | sealed old =>
      exact .single (Turn.raise hfound (.customDuplicate htask hpass hvalue (by rw [hslot]; simp)))
    | empty =>
      -- the slot is written first; the record that answers is the one with the new slot
      have hfill := Turn.fill hfound htask hpass hvalue hslot
      have hset : (session.setSlot record.path (.sealed content)).find? record.path =
          some { record with slot := .sealed content } := find?_setSlot_self hfound
      exact Relation.TransGen.head hfill (.single (@answer_turn _
        { record with slot := .sealed content } loader hset htask hpass))

/-! The ways through a step. -/

/-- What a step of the load of `record` comes to: it has none to take, it takes its own turn, or
it polls others and goes on by what they answer. -/
inductive Way (poll : String → Session → Session × Option Outcome) (session : Session)
    (record : Record) : Progress → Prop where
  /-- The gate of the call that it is at is closed. -/
  | closed {call : HostCall} (hcall : record.task.call? record.path = some call)
      (hclosed : session.closed call.gate = true) : Way poll session record (session, false)
  | settled {outcome : Outcome} (htask : record.task = .settled outcome) :
      Way poll session record (session, false)
  /-- It asks nobody. -/
  | turns {after : Session} (hturns : Relation.TransGen (Turn record.path) session after) :
      Way poll session record (after, true)
  /-- A dependency has failed. -/
  | abandons {linking : Linking} {mid : Session} {failure : Failure}
      (htask : record.task = .linking linking)
      (hgather : gather poll session linking.dependencies = (mid, .error failure)) :
      Way poll session record
        (({ mid with waits := mid.waits.release record.path }).reject record.path failure, true)
  /-- A dependency has not arrived; those that have are noted. -/
  | waits {linking : Linking} {mid : Session} {noted : List Dependency}
      (htask : record.task = .linking linking)
      (hgather : gather poll session linking.dependencies = (mid, .ok noted))
      (hwaiting : ({ linking with dependencies := noted }).isWaiting = true) :
      Way poll session record
        (mid.setTask record.path (.linking { linking with dependencies := noted }), false)
  | executes {linking : Linking} {mid : Session} {noted : List Dependency}
      (htask : record.task = .linking linking)
      (hgather : gather poll session linking.dependencies = (mid, .ok noted))
      (hready : ({ linking with dependencies := noted }).isWaiting = false) :
      Way poll session record
        (mid.execute record.path { linking with dependencies := noted }, true)
  /-- The load that it follows has no outcome. -/
  | unanswered {request : Request} {mid : Session} (htask : record.task = .following request)
      (hpolled : pollRequest poll session request = (mid, none)) :
      Way poll session record (mid, false)
  | resolves {request : Request} {mid : Session} {content : Content}
      (htask : record.task = .following request)
      (hpolled : pollRequest poll session request = (mid, some (.ok content))) :
      Way poll session record (mid.resolve record.path content, true)
  | inherits {request : Request} {mid : Session} {failure : Failure}
      (htask : record.task = .following request)
      (hpolled : pollRequest poll session request = (mid, some (.error failure))) :
      Way poll session record (mid.reject record.path failure, true)

/-- A call at its gate takes a turn unless the gate is closed. -/
theorem way_of_atGate {call : HostCall} {next : Session → Session}
    (hfound : session.find? record.path = some record)
    (hcall : record.task.call? record.path = some call)
    (hnext : session.pass? call = some (.ok ()) →
      Relation.TransGen (Turn record.path) session (next session)) :
    Way poll session record (session.atGate record.path call next) := by
  unfold atGate
  split
  · next hpass => exact .closed hcall (pass?_eq_none_iff.mp hpass)
  · next message hpass => exact .turns (.single (Turn.raise hfound (.refused hcall hpass)))
  · next hpass => exact .turns (hnext hpass)

/-- **The ways through a step of a load**, one kind of task after the other. -/
theorem advance_way (hfound : session.find? record.path = some record) :
    Way poll session record (session.advance poll record) := by
  unfold advance
  dsimp only
  cases htask : record.task with
  | start => exact .turns (.single (begin_turn hfound htask))
  | fetching =>
    refine way_of_atGate hfound (by rw [htask]; rfl) fun hpass => .single ?_
    split
    · next text hfetch => exact linkText_turn hfound htask hpass hfetch
    · next message hfetch => exact Turn.raise hfound (.missing htask hpass hfetch)
  | linking linking =>
    dsimp only
    split
    · next mid failure hgather => exact .abandons htask hgather
    · next mid noted hgather =>
      split
      · next hwaiting => exact .waits htask hgather hwaiting
      · next hready => exact .executes htask hgather (by simpa using hready)
  | executing wrapper dependencies component =>
    exact way_of_atGate hfound (by rw [htask]; rfl) fun hpass =>
      .single (afterExecute_turn hfound htask hpass)
  | styling css later exports template =>
    exact way_of_atGate hfound (by rw [htask]; rfl) fun hpass =>
      .single (styleNext_turn hfound htask hpass)
  | injecting =>
    exact way_of_atGate hfound (by rw [htask]; rfl) fun hpass =>
      .single (resolve_turn hfound (.stylesheet htask hpass))
  | customizing loader =>
    exact way_of_atGate hfound (by rw [htask]; rfl) fun hpass =>
      customize_turns hfound htask hpass
  | following request =>
    dsimp only
    split
    · next mid hpolled => exact .unanswered htask hpolled
    · next mid content hpolled => exact .resolves htask hpolled
    · next mid failure hpolled => exact .inherits htask hpolled
  | settled outcome => exact .settled htask

/-! What the polls on the way make sure of. -/

section Polls

variable (hpoll : Sound (record.path :: busy) poll)
  (hfound : session.find? record.path = some record) {mid : Session}

include hpoll hfound

/-- A module that gives up has a dependency that has failed. -/
theorem abandon_turn {linking : Linking} {failure : Failure}
    (htask : record.task = .linking linking)
    (hgather : gather poll session linking.dependencies = (mid, .error failure)) :
    Moves (record.path :: busy) session mid ∧ Turn record.path mid
      (({ mid with waits := mid.waits.release record.path }).reject record.path failure) := by
  obtain ⟨hmoves, hresult⟩ := gather_sound hpoll linking.dependencies session
  rw [hgather] at hmoves hresult
  obtain ⟨dependency, hmem, request, hwaiting, hfailed⟩ := hresult
  have hown := hmoves.find?_of_mem List.mem_cons_self hfound
  exact ⟨hmoves, Turn.abandon hown htask hmem hwaiting hfailed⟩

/-- What a module notes has arrived. -/
theorem note_look {linking : Linking} {noted : List Dependency}
    (htask : record.task = .linking linking)
    (hgather : gather poll session linking.dependencies = (mid, .ok noted)) :
    Moves (record.path :: busy) session mid ∧ mid.find? record.path = some record ∧
      Look record.path mid
        (mid.setTask record.path (.linking { linking with dependencies := noted })) := by
  obtain ⟨hmoves, hresult⟩ := gather_sound hpoll linking.dependencies session
  rw [hgather] at hmoves hresult
  have hown := hmoves.find?_of_mem List.mem_cons_self hfound
  exact ⟨hmoves, hown, Look.note hown htask hresult⟩

/-- A load that follows another ends as that one has. -/
theorem followed_turn {request : Request} {outcome : Outcome}
    (htask : record.task = .following request)
    (hpolled : pollRequest poll session request = (mid, some outcome)) :
    Moves (record.path :: busy) session mid ∧ Turn record.path mid
      (match outcome with
        | .ok content => mid.resolve record.path content
        | .error failure => mid.reject record.path failure) := by
  obtain ⟨hmoves, houtcome⟩ := pollRequest_sound hpoll session request
  rw [hpolled] at hmoves houtcome
  have hown := hmoves.find?_of_mem List.mem_cons_self hfound
  refine ⟨hmoves, ?_⟩
  cases outcome with
  | ok content => exact resolve_turn hown (.following htask (houtcome _ rfl))
  | error failure => exact Turn.inherit hown htask (houtcome _ rfl)

end Polls

/-- **One step of a load makes moves**: others move while they are polled, and then the load
itself takes its turn. -/
theorem advance_sound (hpoll : Sound (record.path :: busy) poll)
    (hfound : session.find? record.path = some record) :
    Advanced busy record.path session (session.advance poll record) := by
  have hstep := @advance_way session record poll hfound
  generalize session.advance poll record = progress at hstep
  cases hstep with
  | closed _ _ => exact ⟨session, session, .refl, Or.inl rfl, rfl⟩
  | settled _ => exact ⟨session, session, .refl, Or.inl rfl, rfl⟩
  | turns hturns => exact ⟨session, session, .refl, Or.inl rfl, hturns⟩
  | @abandons linking mid failure htask hgather =>
    obtain ⟨hmoves, hturn⟩ := abandon_turn hpoll hfound htask hgather
    exact ⟨mid, mid, hmoves, Or.inl rfl, .single hturn⟩
  | @waits linking mid noted htask hgather _ =>
    obtain ⟨hmoves, -, hlook⟩ := note_look hpoll hfound htask hgather
    exact ⟨mid, _, hmoves, Or.inr hlook, rfl⟩
  | @executes linking mid noted htask hgather hready =>
    -- the hand-over replaces the task, so it does not matter that it was noted before
    obtain ⟨hmoves, hown, hlook⟩ := note_look hpoll hfound htask hgather
    refine ⟨mid, _, hmoves, Or.inr hlook, .single ?_⟩
    rw [← @execute_setTask mid record.path
      (.linking { linking with dependencies := noted }) { linking with dependencies := noted }]
    exact Turn.execute (find?_setTask_self hown) rfl hready
  | @unanswered request mid htask hpolled =>
    have hmoves := (pollRequest_sound hpoll session request).1
    rw [hpolled] at hmoves
    exact ⟨mid, mid, hmoves, Or.inl rfl, rfl⟩
  | @resolves request mid content htask hpolled =>
    obtain ⟨hmoves, hturn⟩ := followed_turn hpoll hfound htask hpolled
    exact ⟨mid, mid, hmoves, Or.inl rfl, .single hturn⟩
  | @inherits request mid failure htask hpolled =>
    obtain ⟨hmoves, hturn⟩ := followed_turn hpoll hfound htask hpolled
    exact ⟨mid, mid, hmoves, Or.inl rfl, .single hturn⟩

theorem Advanced.moves {progressed : Bool} (hfree : path ∉ busy)
    (h : Advanced busy path session (after, progressed)) : Moves busy session after := by
  obtain ⟨mid, looked, hmoves, hlook, hturns⟩ := h
  have hmid : Moves busy session mid := hmoves.mono fun _ => List.mem_cons_of_mem _
  have hlooked : Moves busy session looked := by
    rcases hlook with rfl | hlook
    · exact hmid
    · exact hmid.trans (.single hfree (Or.inr hlook))
  split at hturns
  · refine hlooked.trans ?_
    induction hturns with
    | single hturn => exact .single hfree (Or.inl hturn)
    | tail _ hturn ih => exact ih.trans (.single hfree (Or.inl hturn))
  · rw [hturns]
    exact hlooked

/-! ## Polling -/

/-- **Polling makes moves, and what it answers is the outcome of the load.** -/
theorem pollFor_sound (count : Nat) (busy : List String) : Sound busy (pollFor count busy) := by
  induction count generalizing busy with
  | zero => exact fun path session => ⟨.refl, fun outcome h => absurd h (by simp [pollFor])⟩
  | succ count ih =>
    intro path session
    unfold pollFor
    split
    · exact ⟨.refl, fun outcome h => absurd h (by simp)⟩
    · next record hfound =>
      split
      · next outcome htask =>
        refine ⟨.refl, fun answered h => ?_⟩
        rw [outcomeOf_load_eq_some]
        exact ⟨record, hfound, by rw [htask]; exact congrArg _ (Option.some.inj h)⟩
      · split
        · exact ⟨.refl, fun outcome h => absurd h (by simp)⟩
        · next hbusy =>
          have hfree : path ∉ busy := by simpa using hbusy
          have hpath := path_of_find? hfound
          subst hpath
          have hstep := advance_sound (ih (record.path :: busy)) hfound
          split
          · next after heq =>
            rw [heq] at hstep
            obtain ⟨hmoves, houtcome⟩ := ih busy record.path after
            exact ⟨(hstep.moves hfree).trans hmoves, houtcome⟩
          · next after heq =>
            rw [heq] at hstep
            exact ⟨hstep.moves hfree, fun outcome h => absurd h (by simp)⟩

/-- Polling a request makes moves, and what it answers is the outcome of the request. -/
theorem poll_sound (session : Session) (request : Request) :
    Moves [] session (session.poll request).1 ∧
      ∀ outcome, (session.poll request).2 = some outcome →
        (session.poll request).1.outcomeOf request = some outcome :=
  pollRequest_sound (pollFor_sound session.bound []) session request

end Session

end ScriptLink
