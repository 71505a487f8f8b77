import Mathlib.Data.List.Nodup
import ScriptLink.Session.Run

/-!
# The records of a session

A session is changed by a handful of operations on its records: the task or the slot of one
module is set, or a request appends a record. Each of them is described here by what
`find?` answers afterwards, so that no later proof looks at the list of records.

* **`find?_setTask`**, **`find?_setSlot`** — one module changes, the others stay.
* **`Grown`** — what any number of requests does: the records are kept, and the new ones are
  untouched. `grown_request`, `grown_dependAll` say so of the model's requests.
* **`outcomeOf`** — the outcome that a request has by now, without polling anything.
-/

namespace ScriptLink

/-- The outcome of a load that has ended. -/
def Task.outcome? : Task → Option Outcome
  | .settled outcome => some outcome
  | _ => none

theorem Task.outcome?_eq_some {task : Task} {outcome : Outcome} :
    task.outcome? = some outcome ↔ task = .settled outcome := by
  cases task <;> simp [Task.outcome?]

/-- The call whose gate a load of the module at `path` stands at. -/
def Task.call? (path : String) : Task → Option HostCall
  | .fetching => some (.fetch path)
  | .executing wrapper dependencies _ => some (.execute wrapper dependencies)
  | .styling css _ _ _ => some (.style css)
  | .injecting => some (.stylesheet path)
  | .customizing _ => some (.custom path)
  | _ => none

namespace Session

variable {session after : Session} {path other : String} {record : Record}

/-- The outcome of a request, as far as the session knows it now. -/
def outcomeOf (session : Session) : Request → Option Outcome
  | .refused failure => some (.error failure)
  | .load path => (session.find? path).bind (·.task.outcome?)

theorem outcomeOf_load_eq_some {outcome : Outcome} :
    session.outcomeOf (.load path) = some outcome ↔
      ∃ record, session.find? path = some record ∧ record.task = .settled outcome := by
  simp only [outcomeOf, Option.bind_eq_some_iff, Task.outcome?_eq_some]

/-! ## Looking up -/

theorem path_of_find? (h : session.find? path = some record) : record.path = path := by
  have := List.find?_some h
  simpa using this

theorem mem_of_find? (h : session.find? path = some record) : record ∈ session.records :=
  List.mem_of_find?_eq_some h

theorem find?_eq_none_iff :
    session.find? path = none ↔ path ∉ session.records.map Record.path := by
  simp only [find?, List.find?_eq_none, beq_iff_eq, List.mem_map, not_exists, not_and]

/-! ## Changing one record -/

theorem find?_update {change : Record → Record}
    (hpath : ∀ record, (change record).path = record.path) :
    (session.update path change).find? other =
      if other = path then (session.find? other).map change else session.find? other := by
  unfold find? update
  induction session.records with
  | nil => simp
  | cons first rest ih =>
    rw [List.map_cons, List.find?_cons, List.find?_cons]
    by_cases hfirst : first.path = other
    · subst hfirst
      by_cases hchanged : first.path = path
      · simp [hchanged, hpath]
      · simp [hchanged]
    · have hskip :
          ((if first.path == path then change first else first).path == other) = false := by
        split
        · rw [hpath]; simpa using hfirst
        · simpa using hfirst
      have hother : (first.path == other) = false := by simpa using hfirst
      rw [hskip, hother]
      exact ih

theorem map_path_update {change : Record → Record}
    (hpath : ∀ record, (change record).path = record.path) :
    (session.update path change).records.map Record.path = session.records.map Record.path := by
  unfold update
  rw [List.map_map]
  refine List.map_congr_left fun record _ => ?_
  simp only [Function.comp]
  split
  · exact hpath record
  · rfl

theorem find?_setTask {task : Task} :
    (session.setTask path task).find? other =
      if other = path then (session.find? other).map fun record => { record with task := task }
      else session.find? other :=
  find?_update fun _ => rfl

theorem find?_setSlot {slot : Slot} :
    (session.setSlot path slot).find? other =
      if other = path then (session.find? other).map fun record => { record with slot := slot }
      else session.find? other :=
  find?_update fun _ => rfl

theorem find?_setTask_self {task : Task} (hfound : session.find? path = some record) :
    (session.setTask path task).find? path = some { record with task := task } := by
  rw [find?_setTask, if_pos rfl, hfound]
  rfl

theorem find?_setSlot_self {slot : Slot} (hfound : session.find? path = some record) :
    (session.setSlot path slot).find? path = some { record with slot := slot } := by
  rw [find?_setSlot, if_pos rfl, hfound]
  rfl

theorem map_path_setTask {task : Task} :
    (session.setTask path task).records.map Record.path = session.records.map Record.path :=
  map_path_update fun _ => rfl

theorem map_path_setSlot {slot : Slot} :
    (session.setSlot path slot).records.map Record.path = session.records.map Record.path :=
  map_path_update fun _ => rfl

theorem find?_rejectWith {error : LoadError} :
    (session.rejectWith path error).find? other =
      if other = path then
        (session.find? other).map fun record =>
          { record with task := .settled (.error ⟨session.failures, error⟩) }
      else session.find? other := by
  show (setTask { session with failures := session.failures + 1 } path
    (.settled (.error ⟨session.failures, error⟩))).find? other = _
  rw [find?_setTask]
  rfl

/-! ## Requests

A request leaves everything but the records and the number of errors alone. A new record is
empty and has not begun; its loader is the one that the session has for some specifier which
resolves to the path. -/

/-- `after` has at most `count` records more than `session`, all untouched, and possibly other
wait edges; nothing else has changed but the number of errors. -/
structure Grown (count : Nat) (session after : Session) : Prop where
  config : after.config = session.config
  host : after.host = session.host
  closed : after.closed = session.closed
  loaders : after.loaders = session.loaders
  handles : after.handles = session.handles
  log : after.log = session.log
  demand : after.demand = session.demand
  records : ∃ new : List Record, after.records = session.records ++ new ∧ new.length ≤ count ∧
    (new.map Record.path).Nodup ∧ ∀ record ∈ new, session.find? record.path = none ∧
      record.slot = .empty ∧ record.task = .start ∧
      ∃ specifier referrer, Path.resolve referrer specifier = record.path ∧
        session.loaders.find? specifier = some record.loader

theorem Grown.refl (session : Session) : Grown 0 session session :=
  ⟨rfl, rfl, rfl, rfl, rfl, rfl, rfl, [], by simp⟩

/-- A record that was there is still there, as it was. -/
theorem Grown.found {count : Nat} (h : Grown count session after)
    (hfound : session.find? path = some record) : after.find? path = some record := by
  obtain ⟨new, hrecords, -⟩ := h.records
  unfold find? at hfound ⊢
  rw [hrecords, List.find?_append, hfound]
  rfl

/-- A record that is there now was there before, or it is untouched. -/
theorem Grown.fresh {count : Nat} (h : Grown count session after)
    (hfound : after.find? path = some record) :
    session.find? path = some record ∨
      (session.find? path = none ∧ record.slot = .empty ∧ record.task = .start ∧
        ∃ specifier referrer, Path.resolve referrer specifier = path ∧
          session.loaders.find? specifier = some record.loader) := by
  obtain ⟨new, hrecords, -, -, hnew⟩ := h.records
  have hpath := path_of_find? hfound
  unfold find? at hfound
  rw [hrecords, List.find?_append] at hfound
  cases hold : session.records.find? (·.path == path) with
  | some old =>
    rw [hold] at hfound
    exact Or.inl (hold.trans hfound)
  | none =>
    rw [hold, Option.none_or] at hfound
    have := hnew record (List.mem_of_find?_eq_some hfound)
    rw [hpath] at this
    exact Or.inr this

theorem Grown.nodup {count : Nat} (h : Grown count session after)
    (hnodup : (session.records.map Record.path).Nodup) :
    (after.records.map Record.path).Nodup := by
  obtain ⟨new, hrecords, -, hnewnodup, hnew⟩ := h.records
  rw [hrecords, List.map_append]
  refine hnodup.append hnewnodup fun name hold hnewmem => ?_
  obtain ⟨record, hmem, rfl⟩ := List.mem_map.mp hnewmem
  exact find?_eq_none_iff.mp (hnew record hmem).1 hold

theorem Grown.trans {first second : Nat} {last : Session} (h1 : Grown first session after)
    (h2 : Grown second after last) : Grown (first + second) session last := by
  obtain ⟨new1, hrecords1, hlen1, hnodup1, hnew1⟩ := h1.records
  obtain ⟨new2, hrecords2, hlen2, hnodup2, hnew2⟩ := h2.records
  refine ⟨h2.config.trans h1.config, h2.host.trans h1.host, h2.closed.trans h1.closed,
    h2.loaders.trans h1.loaders, h2.handles.trans h1.handles, h2.log.trans h1.log,
    h2.demand.trans h1.demand, new1 ++ new2, ?_, ?_, ?_, ?_⟩
  · rw [hrecords2, hrecords1, List.append_assoc]
  · rw [List.length_append]; omega
  · rw [List.map_append]
    refine hnodup1.append hnodup2 fun name hin1 hin2 => ?_
    obtain ⟨record, hmem, rfl⟩ := List.mem_map.mp hin2
    refine find?_eq_none_iff.mp (hnew2 record hmem).1 ?_
    rw [hrecords1, List.map_append]
    exact List.mem_append_right _ hin1
  · intro record hmem
    rcases List.mem_append.mp hmem with hin1 | hin2
    · exact hnew1 record hin1
    · obtain ⟨hnone, hslot, htask, hloader⟩ := hnew2 record hin2
      rw [h1.loaders] at hloader
      refine ⟨?_, hslot, htask, hloader⟩
      rw [find?_eq_none_iff] at hnone ⊢
      rw [hrecords1, List.map_append] at hnone
      exact fun hold => hnone (List.mem_append_left _ hold)

/-- The wait graph is no concern of `Grown`. -/
theorem Grown.setWaits {count : Nat} (h : Grown count session after) (waits : WaitGraph) :
    Grown count session { after with waits := waits } :=
  ⟨h.config, h.host, h.closed, h.loaders, h.handles, h.log, h.demand, h.records⟩

@[simp] theorem request_path {specifier referrer : String} :
    (session.request specifier referrer).2.1 = Path.resolve referrer specifier := by
  unfold request
  split
  · rfl
  · dsimp only
    split <;> rfl

@[simp] theorem request_waits {specifier referrer : String} :
    (session.request specifier referrer).1.waits = session.waits := by
  unfold request
  split
  · rfl
  · dsimp only
    split <;> rfl

theorem grown_request (session : Session) (specifier referrer : String) :
    Grown 1 session (session.request specifier referrer).1 := by
  unfold request
  split
  · exact ⟨rfl, rfl, rfl, rfl, rfl, rfl, rfl, [], by simp [fail]⟩
  · next loader hloader =>
    dsimp only
    split
    · exact ⟨rfl, rfl, rfl, rfl, rfl, rfl, rfl, [], by simp⟩
    · next habsent =>
      refine ⟨rfl, rfl, rfl, rfl, rfl, rfl, rfl, _, rfl, by simp, by simp, ?_⟩
      intro record hmem
      rw [List.mem_singleton] at hmem
      subst hmem
      exact ⟨by simpa using habsent, rfl, rfl, specifier, referrer, rfl, hloader⟩

/-- **What a request answers**: a refusal exactly if the suffix has no loader, and otherwise
the load of the resolved path, which is recorded from now on. -/
theorem request_cases (session : Session) (specifier referrer : String) :
    (session.loaders.find? specifier = none ∧
      (session.request specifier referrer).2.2 =
        .refused ⟨session.failures, .unknownSuffix (Path.resolve referrer specifier)⟩) ∨
    ((session.loaders.find? specifier).isSome = true ∧
      (session.request specifier referrer).2.2 = .load (Path.resolve referrer specifier) ∧
      ((session.request specifier referrer).1.find? (Path.resolve referrer specifier)).isSome
        = true) := by
  unfold request
  split
  · next hnone => exact Or.inl ⟨hnone, rfl⟩
  · next loader hloader =>
    refine Or.inr ⟨by rw [hloader]; rfl, ?_⟩
    dsimp only
    split
    · next hsome => exact ⟨rfl, hsome⟩
    · refine ⟨rfl, ?_⟩
      simp only [find?, List.find?_append, List.find?_cons, beq_self_eq_true, Option.isSome_or,
        Option.isSome_some, Bool.or_true]

theorem grown_depend (session : Session) (importer specifier : String) :
    Grown 1 session (session.depend importer specifier).1 := by
  have hgrown := grown_request session specifier importer
  unfold depend
  dsimp only
  split
  · exact hgrown.setWaits _
  · exact hgrown

theorem grown_dependAll (importer : String) (specifiers : List String) (session : Session) :
    Grown specifiers.length session (session.dependAll importer specifiers).1 := by
  induction specifiers generalizing session with
  | nil => exact Grown.refl session
  | cons specifier rest ih =>
    have h := (grown_depend session importer specifier).trans (ih _)
    rw [List.length_cons, Nat.add_comm]
    exact h

end Session

end ScriptLink
