import ScriptLink.Proofs.Session.ComponentCourse

/-!
# One call after the other

A call is not over when it has begun. It stands at its gate, for as long as the gate is closed, and
the load that has begun it stands there with it. So the calls of a load do not overlap: each one is
begun behind the moment at which the host has let the one before it go.

* **`LetGo`** — the host has let a call go before the load began anything behind it. `LetGo.own` and
  `LetGo.idle` carry the moment along.
* **`InTurn`** — all calls of a load but the last were let go like this. `inTurn_of_begun`: those of
  every component load were.
* **`OnCourse.stands`** — where a component load stands, by the calls that it has begun.
* **`IsHeld`** — a load at a closed gate begins nothing and does not end, whatever is done besides,
  until someone opens the gate. `ComponentRun.Course.isHeld`: so it is for every component load
  whose script has been handed over.
-/

namespace ScriptLink.Session

open ComponentRun

variable {allowed : Action → Prop} {base session after : Session} {path : String}
  {record : Record} {call : HostCall} {calls passed later : List HostCall} {run : ComponentRun}
  {host : Host} {config : Config} {closed : String → Bool}

/-! ## Letting a call go -/

/-- In `before` the load of `path` has begun `passed` and then `call`, and nothing behind it. The
gate of `call` is open, and the load goes on from there. Since then it has begun `rest`. -/
structure LetGoAt (allowed : Action → Prop) (base before after session : Session) (path : String)
    (passed : List HostCall) (call : HostCall) (rest : List HostCall) : Prop where
  begun : Begun allowed base path (passed ++ [call]) before
  opened : before.closed call.gate = false
  goes : Move path before after
  since : Begun allowed after path rest session

/-- The host has let `call` go before the load of `path` began `later`, all that it has begun behind
that call. -/
def LetGo (allowed : Action → Prop) (base session : Session) (path : String)
    (passed : List HostCall) (call : HostCall) (later : List HostCall) : Prop :=
  ∃ before after rest, LetGoAt allowed base before after session path passed call rest ∧
    later = after.log.toList.drop before.log.size ++ rest

/-- A load that goes on at an open gate has been let go. -/
theorem letGo_of_move (h : Begun allowed base path (passed ++ [call]) session)
    (hopen : session.closed call.gate = false) (hmove : Move path session after) :
    LetGo allowed base after path passed call (after.log.toList.drop session.log.size) :=
  ⟨session, after, [], ⟨h, hopen, hmove, .start⟩, (List.append_nil _).symm⟩

theorem LetGo.own (h : LetGo allowed base session path passed call later)
    (hmove : Move path session after) :
    LetGo allowed base after path passed call
      (later ++ after.log.toList.drop session.log.size) := by
  obtain ⟨before, next, rest, hat, rfl⟩ := h
  exact ⟨before, next, _, { hat with since := hat.since.own hmove }, List.append_assoc _ _ _⟩

theorem LetGo.idle (h : LetGo allowed base session path passed call later)
    (hidles : Idles allowed path session after) :
    LetGo allowed base after path passed call later := by
  obtain ⟨before, next, rest, hat, heq⟩ := h
  exact ⟨before, next, rest, { hat with since := hidles.begun hat.since }, heq⟩

/-- The calls that the load of `path` has begun were begun one after the other: the host has let
each of them go before the next one. -/
def InTurn (allowed : Action → Prop) (base session : Session) (path : String)
    (calls : List HostCall) : Prop :=
  ∀ passed call next rest, calls = passed ++ call :: next :: rest →
    LetGo allowed base session path passed call (next :: rest)

theorem InTurn.idle (h : InTurn allowed base session path calls)
    (hidles : Idles allowed path session after) : InTurn allowed base after path calls :=
  fun passed call next rest heq => (h passed call next rest heq).idle hidles

/-- A move keeps the calls in turn, if what it begins is behind a call that was let go. -/
theorem InTurn.own (h : InTurn allowed base session path calls) (hmove : Move path session after)
    (hlast : ∀ passed call made, calls = passed ++ [call] →
      after.log.toList.drop session.log.size = [made] →
      LetGo allowed base after path passed call [made]) :
    InTurn allowed base after path (calls ++ after.log.toList.drop session.log.size) := by
  intro passed call next rest heq
  rcases (Step.move hmove : Step allowed session after).log_cases with hsame | ⟨made, hpush⟩
  · have hnew : after.log.toList.drop session.log.size = [] := by rw [hsame, drop_self]
    rw [hnew, List.append_nil] at heq
    have hlet := (h passed call next rest heq).own hmove
    rwa [hnew, List.append_nil] at hlet
  · have hnew : after.log.toList.drop session.log.size = [made] := by rw [hpush, drop_push]
    rw [hnew] at heq
    -- the call that is new is the next one, or it comes last behind the next one
    rcases List.eq_nil_or_concat rest with rfl | ⟨front, last, rfl⟩
    · have hsplit : calls ++ [made] = (passed ++ [call]) ++ [next] := by
        rw [heq, List.append_assoc, List.singleton_append]
      obtain ⟨hcalls, hmade⟩ := List.append_inj' hsplit rfl
      obtain rfl := (List.cons.inj hmade).1
      exact hlast passed call made hcalls hnew
    · have hsplit : calls ++ [made] = (passed ++ call :: next :: front) ++ [last] := by
        rw [heq, List.concat_eq_append, List.append_assoc, List.cons_append, List.cons_append]
      obtain ⟨hcalls, hmade⟩ := List.append_inj' hsplit rfl
      obtain rfl := (List.cons.inj hmade).1
      have hlet := (h passed call next front hcalls).own hmove
      rwa [hnew, List.cons_append, ← List.concat_eq_append] at hlet

/-! ## Where a component load stands -/

/-- A load on its course has ended, or stands at the last call that it has begun. -/
theorem ComponentRun.Course.stands (h : Course run host path calls record) :
    (∃ outcome, record.task = .settled outcome) ∨
      ∃ passed call, calls = passed ++ [call] ∧ record.task.call? path = some call := by
  cases h with
  | calling hat _ _ => exact Or.inr ⟨_, _, rfl, hat.call?_eq path⟩
  | refused _ _ _ htask => exact Or.inl ⟨_, htask⟩
  | finished _ htask _ _ => exact Or.inl ⟨_, htask⟩

/-- **Where a component load stands that has not ended**: it has begun nothing, it waits for its
dependencies, or it stands at the last call that it has begun. -/
theorem OnCourse.stands (h : OnCourse allowed base path session calls record)
    (hopen : record.task.outcome? = none) :
    (calls = [] ∧ record.task = .start) ∨
      (calls = [.fetch path] ∧ ∃ linking, record.task = .linking linking) ∨
      ∃ passed call, calls = passed ++ [call] ∧ record.task.call? path = some call := by
  rcases h with hunrun | ⟨run, -, hcourse⟩
  · generalize record.task = task at hunrun hopen
    cases hunrun with
    | untouched => exact Or.inl ⟨rfl, rfl⟩
    | fetching => exact Or.inr (Or.inr ⟨[], _, rfl, rfl⟩)
    | linking _ => exact Or.inr (Or.inl ⟨rfl, _, rfl⟩)
    | failed => exact absurd hopen (by simp [Task.outcome?])
  · rcases hcourse.stands with ⟨outcome, htask⟩ | hcall
    · exact absurd hopen (by rw [htask]; simp [Task.outcome?])
    · exact Or.inr (Or.inr hcall)

/-- A load at a call moves only if the gate of the call is open. -/
theorem Move.opened (h : Move path session after) (hfound : session.find? path = some record)
    (hcall : record.task.call? path = some call) : session.closed call.gate = false := by
  obtain ⟨_, next, -, -, hnext, -⟩ := h.reworked.own
  obtain rfl := path_of_find? hfound
  by_contra hclosed
  exact (h.moved hfound hnext).passes hcall (pass?_eq_none_iff.mpr (by simpa using hclosed))

/-- A load comes into its linking phase out of the call for its text, or is there already. -/
theorem Moved.before_linking {next : Record} {linking : Linking}
    (h : Moved path session after record next) (htask : next.task = .linking linking) :
    record.task = .fetching ∨ ∃ earlier, record.task = .linking earlier := by
  cases h with
  | call hcalls => exact absurd htask (hcalls.not_linking linking).2
  | link hfetching _ _ _ _ _ => exact Or.inl hfetching
  | note hlinking _ => exact Or.inr ⟨_, hlinking⟩
  | fill _ _ _ _ => exact Or.inr ⟨linking, htask⟩
  | _ => exact absurd htask (by simp)

/-- What is kept of a load: its calls are in turn, and while it waits for its dependencies the host
has let the call for its text go. For that call the moment has to be remembered, since the gate may
be closed again before the script is handed over. -/
structure KeepsTurn (allowed : Action → Prop) (base session : Session) (path : String)
    (calls : List HostCall) (record : Record) : Prop where
  turn : InTurn allowed base session path calls
  fetched : ∀ linking, record.task = .linking linking →
    LetGo allowed base session path [] (.fetch path) []

section Move

variable {next : Record}
  (h : KeepsTurn allowed (start config host closed) session path calls record)
  (hbegun : Begun allowed (start config host closed) path calls session)
  (hfound : session.find? path = some record) (hmove : Move path session after)
  (hloader : record.loader = .component)

include h hbegun hfound hmove hloader

/-- What a move begins, it begins behind a call that was let go. -/
theorem KeepsTurn.turn_move : InTurn allowed (start config host closed) after path
    (calls ++ after.log.toList.drop session.log.size) := by
  refine h.turn.own hmove fun passed call made hcalls hnew => ?_
  rcases (onCourse_of_begun hbegun hfound hloader).stands (hmove.open_of_found hfound) with
    ⟨rfl, -⟩ | ⟨rfl, linking, htask⟩ | ⟨front, last, rfl, hcall⟩
  · exact absurd hcalls (by simp)
  · -- the text was let go before
    rcases List.append_eq_singleton_iff.mp hcalls.symm with ⟨rfl, hlast⟩ | ⟨-, hlast⟩
    · obtain rfl := (List.cons.inj hlast).1
      have hlet := (h.fetched linking htask).own hmove
      rwa [List.nil_append, hnew] at hlet
    · exact absurd hlast (by simp)
  · obtain ⟨rfl, hlast⟩ := List.append_inj' hcalls rfl
    obtain rfl := (List.cons.inj hlast).1
    exact hnew ▸ letGo_of_move hbegun (hmove.opened hfound hcall) hmove

/-- The call for the text is let go by the move that leads into the linking phase. -/
theorem KeepsTurn.fetched_move (hnext : after.find? path = some next) {linking : Linking}
    (htask : next.task = .linking linking) :
    LetGo allowed (start config host closed) after path [] (.fetch path) [] := by
  have hmoved := hmove.moved hfound hnext
  have hbefore := (onCourse_of_begun hbegun hfound hloader).stands (hmove.open_of_found hfound)
  have hstarted : calls ≠ [] := by
    rintro rfl
    rcases hbefore with ⟨-, hstart⟩ | ⟨hfetch, -⟩ | ⟨_, _, hcalls, -⟩
    · rcases hmoved.before_linking htask with hfetching | ⟨_, hlinking⟩
      · exact absurd (hstart.symm.trans hfetching) (by simp)
      · exact absurd (hstart.symm.trans hlinking) (by simp)
    · exact absurd hfetch (by simp)
    · exact absurd hcalls (by simp)
  have hnow : calls ++ after.log.toList.drop session.log.size = [.fetch path] := by
    rcases (onCourse_of_begun (hbegun.own hmove) hnext (hmoved.loader.trans hloader)).stands
      (by rw [htask]; rfl) with ⟨-, hstart⟩ | ⟨hfetch, -⟩ | ⟨_, _, -, hcall⟩
    · exact absurd (hstart.symm.trans htask) (by simp)
    · exact hfetch
    · exact absurd hcall (by rw [htask]; simp [Task.call?])
  -- so it has begun the call for the text before, and nothing now
  obtain ⟨rfl, hquiet⟩ := (List.append_eq_singleton_iff.mp hnow).resolve_left
    fun hnone => hstarted hnone.1
  rcases hmoved.before_linking htask with hfetching | ⟨earlier, hlinking⟩
  · have hopen : session.closed (HostCall.fetch path).gate = false :=
      hmove.opened hfound (by rw [hfetching]; rfl)
    have hlet : LetGo allowed (start config host closed) after path [] (.fetch path) _ :=
      letGo_of_move hbegun hopen hmove
    rwa [hquiet] at hlet
  · have hlet := (h.fetched earlier hlinking).own hmove
    rwa [List.nil_append, hquiet] at hlet

end Move

/-- **Every component load begins its calls in turn.** -/
theorem inTurn_of_begun (h : Begun allowed (start config host closed) path calls session)
    (hfound : session.find? path = some record) (hloader : record.loader = .component) :
    InTurn allowed (start config host closed) session path calls := by
  refine ((@Begun.keeps _ _ _ _ _ (fun session calls record => record.loader = .component →
    KeepsTurn allowed (start config host closed) session path calls record) h ?_ ?_ ?_ ?_ ?_).2
      record hfound hloader).turn
  · intro calls session after record next hbegun hfound hmove hnext hkeeps hloader
    rw [(hmove.moved hfound hnext).loader] at hloader
    have hturn := hkeeps hloader
    exact ⟨hturn.turn_move hbegun hfound hmove hloader,
      fun _ htask => hturn.fetched_move hbegun hfound hmove hloader hnext htask⟩
  · intro calls session after record hidles hkeeps hloader
    obtain ⟨hturn, hfetched⟩ := hkeeps hloader
    exact ⟨hturn.idle hidles, fun linking htask => (hfetched linking htask).idle hidles⟩
  · intro calls session record content _ _ hkeeps hloader
    exact ⟨(hkeeps hloader).turn, (hkeeps hloader).fetched⟩
  · intro session after record hfresh _
    refine ⟨fun passed call next rest heq => absurd heq (by simp), fun linking htask => ?_⟩
    exact absurd (hfresh.2.1.symm.trans htask) (by simp)
  · exact fun record habsurd => absurd habsurd (by simp [start, find?])

/-! ## A closed gate -/

/-- As long as no one opens the gate, the load of `path` begins nothing and does not get on with its
`task`, whatever else is done. -/
def IsHeld (session : Session) (path : String) (task : Task) (gate : String) : Prop :=
  ∀ more last, Begun (fun action => action ≠ .openGate gate) session path more last →
    more = [] ∧ ∃ kept, last.find? path = some kept ∧ kept.task = task

/-- What is kept of a load that has no move at a closed gate. -/
theorem Begun.held {gate : String} {more : List HostCall} {last : Session}
    (h : Begun (fun action => action ≠ .openGate gate) session path more last)
    (hfound : session.find? path = some record) (hclosed : session.closed gate = true)
    (hstill : ∀ before after kept, before.find? path = some kept → kept.task = record.task →
      before.closed gate = true → ¬ Move path before after) :
    more = [] ∧ last.closed gate = true ∧
      ∃ kept, last.find? path = some kept ∧ kept.task = record.task := by
  induction h with
  | start => exact ⟨rfl, hclosed, record, hfound, rfl⟩
  | own _ hmove ih =>
    obtain ⟨-, hgate, kept, hkept, htask⟩ := ih
    exact absurd hmove (hstill _ _ kept hkept htask hgate)
  | other _ hne hmove ih =>
    obtain ⟨hnone, hgate, kept, hkept, htask⟩ := ih
    exact ⟨hnone, hmove.reworked.closed ▸ hgate, kept,
      hmove.reworked.others path kept hne.symm hkept, htask⟩
  | settle _ _ _ ih => exact ih
  | act _ haction ih =>
    obtain ⟨hnone, hgate, kept, hkept, htask⟩ := ih
    refine ⟨hnone, act_closed_of_ne haction hgate, ?_⟩
    rcases act_found _ hkept with hsame | ⟨content, -, -, hsealed⟩
    · exact ⟨kept, hsame, htask⟩
    · exact ⟨_, hsealed, htask⟩

/-- **A component load whose script is handed over is held at the gate of the last call** that it
has begun, if the gate is closed. -/
theorem ComponentRun.Course.isHeld (h : Course run host path calls record)
    (hfound : session.find? path = some record) (hcall : call ∈ calls.getLast?)
    (hclosed : session.closed call.gate = true) :
    session.IsHeld path record.task call.gate := by
  intro more last hmore
  have hstill : ∀ before after kept, before.find? path = some kept → kept.task = record.task →
      before.closed call.gate = true → ¬ Move path before after := by
    intro before after kept hkept htask hgate hmove
    rcases h.stands with ⟨outcome, hsettled⟩ | ⟨front, standing, rfl, hstanding⟩
    · have hopen := hmove.open_of_found hkept
      rw [htask, hsettled] at hopen
      exact absurd hopen (by simp [Task.outcome?])
    · obtain rfl : standing = call := by simpa using hcall
      rw [hmove.opened hkept (htask ▸ hstanding)] at hgate
      exact absurd hgate (by simp)
  obtain ⟨hnone, -, hkept⟩ := hmore.held hfound hclosed hstill
  exact ⟨hnone, hkept⟩

end ScriptLink.Session
