import Mathlib.Logic.Relation
import ScriptLink.Proofs.Session.Records

/-!
# Turns

A poll carries many loads on, one inside the other. This module cuts it into the stretches in
which one load acts alone, and says once what such a stretch can do; every invariant of a
session is proved from that.

* **`Turn path`** — the load of `path` gets one step on: it begins a call, requests what its
  script depends on, is handed to the host, or ends.
* **`Look path`** — the module at `path` notes which of its dependencies have arrived. Nothing
  else changes, and nothing need change at all.
* **`Moves busy`** — any number of turns and looks of modules that are not in `busy`.

What all turns have in common is `Reworked`: the surroundings stay, one record that had not
settled gets another task or another slot, the other records are kept, and new ones are
untouched. What becomes of the one record is `Moved`.
-/

namespace ScriptLink

/-- What the text of a module holds: its script, its markers, and the component it came in. -/
structure ModuleText where
  script : String
  markers : List Marker
  component : Option Component

/-- How a loader takes the text of a module apart. -/
def Loader.take (loader : Loader) (text : String) : ModuleText :=
  match loader with
  | .component =>
    let component := Component.ofMarkup text
    ⟨component.script, component.markers, some component⟩
  | _ => ⟨text, Marker.ofScript text, none⟩

/-- Whether modules of this loader have a text that is fetched. -/
def Loader.readsText : Loader → Bool
  | .script | .component => true
  | _ => false

/-- The error with which a registered loader fails. -/
def CustomFailure.error (path : String) : CustomFailure → LoadError
  | .invalidComponent => .invalidComponent path
  | .host message => .host message

/-- The exports with the template of a component on them, if there is one. -/
def Component.withTemplate? (template : Option String) (exports : Content) : Option Content :=
  match template with
  | none => some exports
  | some template => Component.attach? template exports

section Forall₂

variable {α β : Type} {rel : α → β → Prop} {firsts : List α} {seconds : List β}

theorem forall₂_mem_left (h : List.Forall₂ rel firsts seconds) {first : α}
    (hmem : first ∈ firsts) : ∃ second ∈ seconds, rel first second := by
  induction h with
  | nil => exact absurd hmem List.not_mem_nil
  | cons hfirst _ ih =>
    rcases List.mem_cons.mp hmem with rfl | hrest
    · exact ⟨_, List.mem_cons_self, hfirst⟩
    · obtain ⟨second, hsecond, hrel⟩ := ih hrest
      exact ⟨second, List.mem_cons_of_mem _ hsecond, hrel⟩

theorem forall₂_mem_right (h : List.Forall₂ rel firsts seconds) {second : β}
    (hmem : second ∈ seconds) : ∃ first ∈ firsts, rel first second :=
  forall₂_mem_left h.flip hmem

theorem forall₂_getElem? (h : List.Forall₂ rel firsts seconds) {index : Nat} {first : α}
    (hfirst : firsts[index]? = some first) :
    ∃ second, seconds[index]? = some second ∧ rel first second := by
  induction h generalizing index with
  | nil => exact absurd hfirst (by simp)
  | cons hrel _ ih =>
    cases index with
    | zero =>
      obtain rfl := Option.some.inj hfirst
      exact ⟨_, rfl, hrel⟩
    | succ index => exact ih hfirst

/-- A weaker relation may use that the pairs come from the two lists. -/
theorem forall₂_imp_mem {weaker : α → β → Prop} (h : List.Forall₂ rel firsts seconds)
    (himp : ∀ first ∈ firsts, ∀ second ∈ seconds, rel first second → weaker first second) :
    List.Forall₂ weaker firsts seconds := by
  induction h with
  | nil => exact .nil
  | cons hfirst _ ih =>
    refine .cons (himp _ List.mem_cons_self _ List.mem_cons_self hfirst) (ih ?_)
    exact fun first hmem1 second hmem2 =>
      himp first (List.mem_cons_of_mem _ hmem1) second (List.mem_cons_of_mem _ hmem2)

end Forall₂

namespace Session

/-! ## What a load does next -/

/-- The call that a load begins next, and its task while the call is at its gate. -/
inductive Calls (session : Session) (record : Record) : HostCall → Task → Prop where
  | fetch (htask : record.task = .start) (hloader : record.loader.readsText = true) :
      Calls session record (.fetch record.path) .fetching
  | stylesheet (htask : record.task = .start) (hloader : record.loader = .stylesheet) :
      Calls session record (.stylesheet record.path) .injecting
  | custom {loader : CustomLoader} (htask : record.task = .start)
      (hloader : record.loader = .custom loader) :
      Calls session record (.custom record.path) (.customizing loader)
  | firstStyle {wrapper : Wrapper} {dependencies : List (String × Content)}
      {component : Component} {css : String} {later : List String}
      (htask : record.task = .executing wrapper dependencies (some component))
      (hpass : session.pass? (.execute wrapper dependencies) = some (.ok ()))
      (hstyles : component.styles = css :: later) :
      Calls session record (.style css)
        (.styling css later (session.host.execute wrapper) component.template)
  | nextStyle {css next : String} {later : List String} {exports : Content}
      {template : Option String}
      (htask : record.task = .styling css (next :: later) exports template)
      (hpass : session.pass? (.style css) = some (.ok ())) :
      Calls session record (.style next) (.styling next later exports template)

/-- The content that a load has arrived at and is about to put into its slot. -/
inductive Yields (session : Session) (record : Record) : Content → Prop where
  | echo (htask : record.task = .start) (hloader : record.loader = .echo) :
      Yields session record (.text record.path)
  | script {wrapper : Wrapper} {dependencies : List (String × Content)}
      (htask : record.task = .executing wrapper dependencies none)
      (hpass : session.pass? (.execute wrapper dependencies) = some (.ok ())) :
      Yields session record (session.host.execute wrapper)
  | component {wrapper : Wrapper} {dependencies : List (String × Content)}
      {component : Component} {content : Content}
      (htask : record.task = .executing wrapper dependencies (some component))
      (hpass : session.pass? (.execute wrapper dependencies) = some (.ok ()))
      (hstyles : component.styles = [])
      (hattach : Component.withTemplate? component.template (session.host.execute wrapper)
        = some content) :
      Yields session record content
  | styled {css : String} {exports content : Content} {template : Option String}
      (htask : record.task = .styling css [] exports template)
      (hpass : session.pass? (.style css) = some (.ok ()))
      (hattach : Component.withTemplate? template exports = some content) :
      Yields session record content
  | stylesheet (htask : record.task = .injecting)
      (hpass : session.pass? (.stylesheet record.path) = some (.ok ())) :
      Yields session record (session.host.stylesheet record.path)
  | custom {loader : CustomLoader} (htask : record.task = .customizing loader)
      (hpass : session.pass? (.custom record.path) = some (.ok ()))
      (htarget : loader.target = none) (hfailure : loader.failure = none) :
      Yields session record loader.value
  | following {request : Request} {content : Content}
      (htask : record.task = .following request)
      (houtcome : session.outcomeOf request = some (.ok content)) :
      Yields session record content

/-- The new error that a step of the load itself raises. -/
inductive Raises (session : Session) (record : Record) : LoadError → Prop where
  | refused {call : HostCall} {message : String}
      (hcall : record.task.call? record.path = some call)
      (hpass : session.pass? call = some (.error message)) :
      Raises session record (.host message)
  | missing {message : String} (htask : record.task = .fetching)
      (hpass : session.pass? (.fetch record.path) = some (.ok ()))
      (hfetch : session.host.fetch record.path = .error message) :
      Raises session record (.host message)
  | transpile {text : String} {error : SourceError} (htask : record.task = .fetching)
      (hpass : session.pass? (.fetch record.path) = some (.ok ()))
      (hfetch : session.host.fetch record.path = .ok text)
      (hscript : transform session.config.exportsName (record.loader.take text).script
        = .error error) :
      Raises session record (.transpile record.path error)
  | bareComponent {wrapper : Wrapper} {dependencies : List (String × Content)}
      {component : Component}
      (htask : record.task = .executing wrapper dependencies (some component))
      (hpass : session.pass? (.execute wrapper dependencies) = some (.ok ()))
      (hstyles : component.styles = [])
      (hattach : Component.withTemplate? component.template (session.host.execute wrapper)
        = none) :
      Raises session record (.invalidComponent record.path)
  | styledComponent {css : String} {exports : Content} {template : Option String}
      (htask : record.task = .styling css [] exports template)
      (hpass : session.pass? (.style css) = some (.ok ()))
      (hattach : Component.withTemplate? template exports = none) :
      Raises session record (.invalidComponent record.path)
  | custom {loader : CustomLoader} {failure : CustomFailure}
      (htask : record.task = .customizing loader)
      (hpass : session.pass? (.custom record.path) = some (.ok ()))
      (htarget : loader.target = none) (hfailure : loader.failure = some failure) :
      Raises session record (failure.error record.path)
  | duplicate {content : Content} (hyields : Yields session record content)
      (hslot : record.slot ≠ .empty) :
      Raises session record (.duplicateExport record.path)
  | customDuplicate {loader : CustomLoader} {content : Content}
      (htask : record.task = .customizing loader)
      (hpass : session.pass? (.custom record.path) = some (.ok ()))
      (hvalue : loader.slotValue = some content) (hslot : record.slot ≠ .empty) :
      Raises session record (.duplicateExport record.path)

/-- The session after a module has requested everything that its script depends on. -/
def linked (session : Session) (path : String) (script : Script) (requests : ImportMap)
    (component : Option Component) : Session :=
  (session.dependAll path requests.paths).1.setTask path
    (.linking ⟨script, requests, (session.dependAll path requests.paths).2, component⟩)

/-- The load of `path` gets one step on. -/
inductive Turn (path : String) (session : Session) : Session → Prop where
  | call {record : Record} {call : HostCall} {task : Task}
      (hfound : session.find? path = some record) (hcalls : Calls session record call task) :
      Turn path session ((session.call call).setTask path task)
  | link {record : Record} {text : String} {script : Script}
      (hfound : session.find? path = some record) (htask : record.task = .fetching)
      (hpass : session.pass? (.fetch path) = some (.ok ()))
      (hfetch : session.host.fetch path = .ok text)
      (hscript : transform session.config.exportsName (record.loader.take text).script
        = .ok script) :
      Turn path session (session.linked path script
        (Linking.requestsOf (record.loader.take text).markers script.imports)
        (record.loader.take text).component)
  | execute {record : Record} {linking : Linking}
      (hfound : session.find? path = some record) (htask : record.task = .linking linking)
      (hready : linking.isWaiting = false) :
      Turn path session (session.execute path linking)
  | abandon {record : Record} {linking : Linking} {dependency : Dependency}
      {request : Request} {failure : Failure}
      (hfound : session.find? path = some record) (htask : record.task = .linking linking)
      (hmem : dependency ∈ linking.dependencies)
      (hwaiting : dependency.waiting = .awaited request)
      (hfailed : session.outcomeOf request = some (.error failure)) :
      Turn path session
        ({ session with waits := session.waits.release path }.reject path failure)
  | resolve {record : Record} {content : Content}
      (hfound : session.find? path = some record) (hyields : Yields session record content)
      (hslot : record.slot = .empty) :
      Turn path session
        ((session.setSlot path (.sealed content)).setTask path (.settled (.ok content)))
  | raise {record : Record} {error : LoadError}
      (hfound : session.find? path = some record) (hraises : Raises session record error) :
      Turn path session (session.rejectWith path error)
  | inherit {record : Record} {request : Request} {failure : Failure}
      (hfound : session.find? path = some record) (htask : record.task = .following request)
      (hfailed : session.outcomeOf request = some (.error failure)) :
      Turn path session (session.reject path failure)
  | fill {record : Record} {loader : CustomLoader} {content : Content}
      (hfound : session.find? path = some record) (htask : record.task = .customizing loader)
      (hpass : session.pass? (.custom path) = some (.ok ()))
      (hvalue : loader.slotValue = some content) (hslot : record.slot = .empty) :
      Turn path session (session.setSlot path (.sealed content))
  | follow {record : Record} {loader : CustomLoader} {target : String}
      (hfound : session.find? path = some record) (htask : record.task = .customizing loader)
      (hpass : session.pass? (.custom path) = some (.ok ()))
      (htarget : loader.target = some target) :
      Turn path session
        ((session.request target path).1.setTask path
          (.following (session.request target path).2.2))

/-- The dependencies of a module after it has noted some that have arrived. -/
def Gathered (session : Session) : List Dependency → List Dependency → Prop :=
  List.Forall₂ fun dependency noted => noted = dependency ∨
    ∃ request content, dependency.waiting = .awaited request ∧
      session.outcomeOf request = some (.ok content) ∧
      noted = ⟨dependency.path, .arrived content⟩

/-- What holds of every dependency holds of the noted ones, if it holds of those that arrived. -/
theorem Gathered.forall₂ {α : Type} {relation : α → Dependency → Prop} {items : List α}
    {dependencies noted : List Dependency} (hgathered : Gathered session dependencies noted)
    (harrived : ∀ item dependency request content, relation item dependency →
      dependency.waiting = .awaited request → session.outcomeOf request = some (.ok content) →
      relation item ⟨dependency.path, .arrived content⟩)
    (h : List.Forall₂ relation items dependencies) : List.Forall₂ relation items noted := by
  induction h generalizing noted with
  | nil =>
    cases hgathered
    exact .nil
  | cons hfirst _ ih =>
    cases hgathered with
    | cons hnoted hrest =>
      refine .cons ?_ (ih hrest)
      rcases hnoted with rfl | ⟨request, content, hwaiting, houtcome, rfl⟩
      · exact hfirst
      · exact harrived _ _ request content hfirst hwaiting houtcome

/-- The module at `path` notes which of its dependencies have arrived. -/
inductive Look (path : String) (session : Session) : Session → Prop where
  | note {record : Record} {linking : Linking} {dependencies : List Dependency}
      (hfound : session.find? path = some record) (htask : record.task = .linking linking)
      (hgathered : Gathered session linking.dependencies dependencies) :
      Look path session
        (session.setTask path (.linking { linking with dependencies := dependencies }))

/-- A turn or a look of the module at `path`. -/
def Move (path : String) (session after : Session) : Prop :=
  Turn path session after ∨ Look path session after

/-- Turns and looks of modules that are not in `busy`. -/
def Moves (busy : List String) : Session → Session → Prop :=
  Relation.ReflTransGen fun session after => ∃ path, path ∉ busy ∧ Move path session after

/-! ## What all moves have in common -/

/-- A record that has just been requested. -/
def IsFresh (session : Session) (record : Record) : Prop :=
  record.slot = .empty ∧ record.task = .start ∧
    ∃ specifier referrer, Path.resolve referrer specifier = record.path ∧
      session.loaders.find? specifier = some record.loader

/-- Only the record at `path` changes, and it had not settled. -/
structure Reworked (path : String) (session after : Session) : Prop where
  config : after.config = session.config
  host : after.host = session.host
  closed : after.closed = session.closed
  loaders : after.loaders = session.loaders
  handles : after.handles = session.handles
  demand : after.demand = session.demand
  own : ∃ before record, session.find? path = some before ∧ before.task.outcome? = none ∧
    after.find? path = some record ∧ record.loader = before.loader
  others : ∀ other record, other ≠ path → session.find? other = some record →
    after.find? other = some record
  fresh : ∀ other record, after.find? other = some record →
    (session.find? other).isSome = true ∨ session.IsFresh record
  nodup : (session.records.map Record.path).Nodup → (after.records.map Record.path).Nodup

variable {session mid after : Session} {path : String} {record : Record}

/-- Setting a task after requests reworks a record. -/
theorem Grown.reworked {count : Nat} (h : Grown count session mid) {task : Task}
    (hfound : session.find? path = some record) (hopen : record.task.outcome? = none) :
    Reworked path session (mid.setTask path task) where
  config := h.config
  host := h.host
  closed := h.closed
  loaders := h.loaders
  handles := h.handles
  demand := h.demand
  own :=
    ⟨record, { record with task := task }, hfound, hopen,
      find?_setTask_self (h.found hfound), rfl⟩
  others other old hne hold := by
    rw [find?_setTask, if_neg hne]
    exact h.found hold
  fresh other new hnew := by
    rw [find?_setTask] at hnew
    split at hnew
    · next heq =>
      rw [heq, hfound]
      exact Or.inl rfl
    · rcases h.fresh hnew with hold | ⟨-, hslot, htask, hloader⟩
      · exact Or.inl (by rw [hold]; rfl)
      · rw [← path_of_find? hnew] at hloader
        exact Or.inr ⟨hslot, htask, hloader⟩
  nodup hnodup := by
    rw [map_path_setTask]
    exact h.nodup hnodup

/-- Two sessions that differ in wait graph, log and number of errors only. -/
def SameRecords (session after : Session) : Prop :=
  after = { session with waits := after.waits, log := after.log, failures := after.failures }

/-- Setting a task where the records are unchanged reworks a record. -/
theorem SameRecords.reworked (h : SameRecords session mid) {task : Task}
    (hfound : session.find? path = some record) (hopen : record.task.outcome? = none) :
    Reworked path session (mid.setTask path task) := by
  have hgrown : Reworked path session (session.setTask path task) :=
    (Grown.refl session).reworked hfound hopen
  rw [h]
  exact ⟨hgrown.config, hgrown.host, hgrown.closed, hgrown.loaders, hgrown.handles,
    hgrown.demand, hgrown.own, hgrown.others, hgrown.fresh, hgrown.nodup⟩

/-- Writing the slot of a record that has not settled reworks it. -/
theorem reworked_setSlot {slot : Slot} (hfound : session.find? path = some record)
    (hopen : record.task.outcome? = none) :
    Reworked path session (session.setSlot path slot) where
  config := rfl
  host := rfl
  closed := rfl
  loaders := rfl
  handles := rfl
  demand := rfl
  own :=
    ⟨record, { record with slot := slot }, hfound, hopen, find?_setSlot_self hfound, rfl⟩
  others other old hne hold := by
    rw [find?_setSlot, if_neg hne]
    exact hold
  fresh other new hnew := by
    rw [find?_setSlot] at hnew
    split at hnew
    · next heq =>
      rw [heq, hfound]
      exact Or.inl rfl
    · exact Or.inl (by rw [hnew]; rfl)
  nodup hnodup := by
    rw [map_path_setSlot]
    exact hnodup

theorem Reworked.trans {last : Session} (h1 : Reworked path session after)
    (h2 : Reworked path after last) : Reworked path session last where
  config := h2.config.trans h1.config
  host := h2.host.trans h1.host
  closed := h2.closed.trans h1.closed
  loaders := h2.loaders.trans h1.loaders
  handles := h2.handles.trans h1.handles
  demand := h2.demand.trans h1.demand
  own := by
    obtain ⟨before, between, hbefore, hopen, hbetween, hloader1⟩ := h1.own
    obtain ⟨between', record, hbetween', -, hrecord, hloader2⟩ := h2.own
    rw [hbetween, Option.some.injEq] at hbetween'
    subst hbetween'
    exact ⟨before, record, hbefore, hopen, hrecord, hloader2.trans hloader1⟩
  others other record hne hold := h2.others other record hne (h1.others other record hne hold)
  fresh other record hnew := by
    rcases h2.fresh other record hnew with hsome | ⟨hslot, htask, hloader⟩
    · obtain ⟨between, hbetween⟩ := Option.isSome_iff_exists.mp hsome
      rcases h1.fresh other between hbetween with hold | hfresh
      · exact Or.inl hold
      · by_cases hne : other = path
        · obtain ⟨before, -, hbefore, -⟩ := h1.own
          rw [hne, hbefore]
          exact Or.inl rfl
        · rw [h2.others other between hne hbetween, Option.some.injEq] at hnew
          rw [← hnew]
          exact Or.inr hfresh
    · rw [h1.loaders] at hloader
      exact Or.inr ⟨hslot, htask, hloader⟩
  nodup hnodup := h2.nodup (h1.nodup hnodup)

/-! Only a load that has not ended makes a move. -/

theorem Calls.outcome?_eq_none {call : HostCall} {task : Task}
    (h : Calls session record call task) : record.task.outcome? = none := by
  cases h <;> simp only [*, Task.outcome?]

theorem Yields.outcome?_eq_none {content : Content} (h : Yields session record content) :
    record.task.outcome? = none := by
  cases h <;> simp only [*, Task.outcome?]

theorem Raises.outcome?_eq_none {error : LoadError} (h : Raises session record error) :
    record.task.outcome? = none := by
  cases h with
  | refused hcall _ => cases htask : record.task <;> simp_all [Task.call?, Task.outcome?]
  | duplicate hyields _ => exact hyields.outcome?_eq_none
  | _ => simp only [*, Task.outcome?]

theorem execute_eq {linking : Linking} : session.execute path linking =
    (call { session with waits := session.waits.release path }
      (.execute (linking.wrapper session.config path)
        (Linking.table session.exports? linking.dependencies))).setTask path
      (.executing (linking.wrapper session.config path)
        (Linking.table session.exports? linking.dependencies) linking.component) :=
  rfl

/-- **What a turn does to the records.** -/
theorem Turn.reworked (h : Turn path session after) : Reworked path session after := by
  cases h with
  | call hfound hcalls =>
    refine SameRecords.reworked ?_ hfound hcalls.outcome?_eq_none
    rfl
  | link hfound htask _ _ _ =>
    exact (grown_dependAll path _ session).reworked hfound (by rw [htask]; rfl)
  | execute hfound htask _ =>
    rw [execute_eq]
    refine SameRecords.reworked ?_ hfound (by rw [htask]; rfl)
    rfl
  | abandon hfound htask _ _ _ =>
    refine SameRecords.reworked ?_ hfound (by rw [htask]; rfl)
    rfl
  | resolve hfound hyields _ =>
    have hopen := hyields.outcome?_eq_none
    exact (reworked_setSlot hfound hopen).trans
      ((Grown.refl _).reworked (find?_setSlot_self hfound) hopen)
  | raise hfound hraises =>
    refine SameRecords.reworked ?_ hfound hraises.outcome?_eq_none
    rfl
  | inherit hfound htask _ =>
    exact (Grown.refl session).reworked hfound (by rw [htask]; rfl)
  | fill hfound htask _ _ _ =>
    exact reworked_setSlot hfound (by rw [htask]; rfl)
  | follow hfound htask _ _ =>
    exact (grown_request session _ path).reworked hfound (by rw [htask]; rfl)

/-! The record of the module itself after each kind of turn. -/

theorem find?_called {call : HostCall} {task : Task}
    (hfound : session.find? path = some record) :
    ((session.call call).setTask path task).find? path = some { record with task := task } := by
  have hcall : (session.call call).find? path = some record := hfound
  exact find?_setTask_self hcall

theorem find?_linked {script : Script} {requests : ImportMap} {component : Option Component}
    (hfound : session.find? path = some record) :
    (session.linked path script requests component).find? path =
      some { record with
        task :=
          .linking ⟨script, requests, (session.dependAll path requests.paths).2, component⟩ } :=
  find?_setTask_self ((grown_dependAll path _ session).found hfound)

theorem find?_executed {linking : Linking} (hfound : session.find? path = some record) :
    (session.execute path linking).find? path =
      some { record with
        task := .executing (linking.wrapper session.config path)
          (Linking.table session.exports? linking.dependencies) linking.component } := by
  have hrelease : ({ session with waits := session.waits.release path } : Session).find? path =
      some record := hfound
  exact find?_called hrelease

theorem find?_abandoned {failure : Failure} (hfound : session.find? path = some record) :
    ({ session with waits := session.waits.release path }.reject path failure).find? path =
      some { record with task := .settled (.error failure) } := by
  have hrelease : ({ session with waits := session.waits.release path } : Session).find? path =
      some record := hfound
  exact find?_setTask_self hrelease

theorem find?_resolved {content : Content} (hfound : session.find? path = some record) :
    ((session.setSlot path (.sealed content)).setTask path (.settled (.ok content))).find? path =
      some { record with slot := .sealed content, task := .settled (.ok content) } :=
  find?_setTask_self (find?_setSlot_self hfound)

theorem find?_raised {error : LoadError} (hfound : session.find? path = some record) :
    (session.rejectWith path error).find? path =
      some { record with task := .settled (.error ⟨session.failures, error⟩) } := by
  rw [find?_rejectWith, if_pos rfl, hfound]
  rfl

theorem find?_followed {target : String} (hfound : session.find? path = some record) :
    ((session.request target path).1.setTask path
        (.following (session.request target path).2.2)).find? path =
      some { record with task := .following (session.request target path).2.2 } :=
  find?_setTask_self ((grown_request session target path).found hfound)

theorem Look.reworked (h : Look path session after) : Reworked path session after := by
  cases h with
  | note hfound htask _ => exact (Grown.refl session).reworked hfound (by rw [htask]; rfl)

theorem Move.reworked (h : Move path session after) : Reworked path session after :=
  h.elim Turn.reworked Look.reworked

/-- What a move makes of the module's own record. -/
inductive Moved (path : String) (session after : Session) (record : Record) : Record → Prop where
  | call {call : HostCall} {task : Task} (hcalls : Calls session record call task) :
      Moved path session after record { record with task := task }
  | link {text : String} {script : Script} (htask : record.task = .fetching)
      (hpass : session.pass? (.fetch path) = some (.ok ()))
      (hfetch : session.host.fetch path = .ok text)
      (hscript : transform session.config.exportsName (record.loader.take text).script
        = .ok script) {requests : ImportMap}
      (hrequests : requests =
        Linking.requestsOf (record.loader.take text).markers script.imports)
      (hafter : after =
        session.linked path script requests (record.loader.take text).component) :
      Moved path session after record { record with
        task := .linking ⟨script, requests, (session.dependAll path requests.paths).2,
          (record.loader.take text).component⟩ }
  | execute {linking : Linking} (htask : record.task = .linking linking)
      (hready : linking.isWaiting = false) (hafter : after = session.execute path linking) :
      Moved path session after record { record with
        task := .executing (linking.wrapper session.config path)
          (Linking.table session.exports? linking.dependencies) linking.component }
  | abandon {linking : Linking} {dependency : Dependency} {request : Request}
      {failure : Failure} (htask : record.task = .linking linking)
      (hmem : dependency ∈ linking.dependencies)
      (hwaiting : dependency.waiting = .awaited request)
      (hfailed : session.outcomeOf request = some (.error failure)) :
      Moved path session after record { record with task := .settled (.error failure) }
  | resolve {content : Content} (hyields : Yields session record content)
      (hslot : record.slot = .empty) :
      Moved path session after record
        { record with slot := .sealed content, task := .settled (.ok content) }
  | raise {error : LoadError} (hraises : Raises session record error) :
      Moved path session after record
        { record with task := .settled (.error ⟨session.failures, error⟩) }
  | inherit {request : Request} {failure : Failure} (htask : record.task = .following request)
      (hfailed : session.outcomeOf request = some (.error failure)) :
      Moved path session after record { record with task := .settled (.error failure) }
  | fill {loader : CustomLoader} {content : Content}
      (htask : record.task = .customizing loader)
      (hpass : session.pass? (.custom path) = some (.ok ()))
      (hvalue : loader.slotValue = some content) (hslot : record.slot = .empty) :
      Moved path session after record { record with slot := .sealed content }
  | follow {loader : CustomLoader} {target : String}
      (htask : record.task = .customizing loader)
      (hpass : session.pass? (.custom path) = some (.ok ()))
      (htarget : loader.target = some target)
      (hafter : after = (session.request target path).1.setTask path
        (.following (session.request target path).2.2)) :
      Moved path session after record
        { record with task := .following (session.request target path).2.2 }
  | note {linking : Linking} {dependencies : List Dependency}
      (htask : record.task = .linking linking)
      (hgathered : Gathered session linking.dependencies dependencies) :
      Moved path session after record
        { record with task := .linking { linking with dependencies := dependencies } }

/-- **What a move does to the module's own record.** -/
theorem Move.moved {next : Record} (h : Move path session after)
    (hfound : session.find? path = some record) (hnext : after.find? path = some next) :
    Moved path session after record next := by
  -- the record that a turn speaks of is the one that is found, before and afterwards
  have hsame : ∀ {other changed : Record}, session.find? path = some other →
      after.find? path = some changed → Moved path session after other changed →
      Moved path session after record next := by
    intro other changed hother hchanged hmoved
    rw [hfound, Option.some.injEq] at hother
    rw [hnext, Option.some.injEq] at hchanged
    exact hother ▸ hchanged ▸ hmoved
  rcases h with hturn | hlook
  · cases hturn with
    | call hold hcalls => exact hsame hold (find?_called hold) (.call hcalls)
    | link hold htask hpass hfetch hscript =>
      exact hsame hold (find?_linked hold) (.link htask hpass hfetch hscript rfl rfl)
    | execute hold htask hready =>
      exact hsame hold (find?_executed hold) (.execute htask hready rfl)
    | abandon hold htask hmem hwaiting hfailed =>
      exact hsame hold (find?_abandoned hold) (.abandon htask hmem hwaiting hfailed)
    | resolve hold hyields hslot =>
      exact hsame hold (find?_resolved hold) (.resolve hyields hslot)
    | raise hold hraises => exact hsame hold (find?_raised hold) (.raise hraises)
    | inherit hold htask hfailed =>
      exact hsame hold (find?_setTask_self hold) (.inherit htask hfailed)
    | fill hold htask hpass hvalue hslot =>
      exact hsame hold (find?_setSlot_self hold) (.fill htask hpass hvalue hslot)
    | follow hold htask hpass htarget =>
      exact hsame hold (find?_followed hold) (.follow htask hpass htarget rfl)
  · cases hlook with
    | note hold htask hgathered =>
      exact hsame hold (find?_setTask_self hold) (.note htask hgathered)

/-! ## Sequences of moves -/

theorem Moves.single {busy : List String} (hfree : path ∉ busy) (h : Move path session after) :
    Moves busy session after :=
  Relation.ReflTransGen.single ⟨path, hfree, h⟩

theorem Moves.trans {busy : List String} {last : Session} (h1 : Moves busy session after)
    (h2 : Moves busy after last) : Moves busy session last :=
  Relation.ReflTransGen.trans h1 h2

/-- Fewer busy modules allow more moves. -/
theorem Moves.mono {busy fewer : List String} (hsub : ∀ name ∈ fewer, name ∈ busy)
    (h : Moves busy session after) : Moves fewer session after :=
  Relation.ReflTransGen.mono (fun _ _ ⟨name, hfree, hmove⟩ =>
    ⟨name, fun hmem => hfree (hsub name hmem), hmove⟩) _ _ h

/-- The record of a busy module is left as it is. -/
theorem Moves.find?_of_mem {busy : List String} (h : Moves busy session after)
    (hmem : path ∈ busy) (hfound : session.find? path = some record) :
    after.find? path = some record := by
  induction h with
  | refl => exact hfound
  | tail _ hmove ih =>
    obtain ⟨name, hfree, hmove⟩ := hmove
    exact hmove.reworked.others path record (fun heq => hfree (heq ▸ hmem)) ih

/-- A move changes the task of a settled load no more, whoever makes it. -/
theorem Move.outcomeOf {outcome : Outcome} {request : Request} (h : Move path session after)
    (houtcome : session.outcomeOf request = some outcome) :
    after.outcomeOf request = some outcome := by
  cases request with
  | refused failure => exact houtcome
  | load other =>
    rw [outcomeOf_load_eq_some] at houtcome ⊢
    obtain ⟨record, hfound, htask⟩ := houtcome
    refine ⟨record, h.reworked.others other record (fun heq => ?_) hfound, htask⟩
    subst heq
    obtain ⟨before, -, hbefore, hopen, -⟩ := h.reworked.own
    rw [hbefore, Option.some.injEq] at hfound
    subst hfound
    rw [htask] at hopen
    exact absurd hopen (by simp [Task.outcome?])

/-- **An outcome is final.** -/
theorem Moves.outcomeOf {busy : List String} {outcome : Outcome} {request : Request}
    (h : Moves busy session after) (houtcome : session.outcomeOf request = some outcome) :
    after.outcomeOf request = some outcome := by
  induction h with
  | refl => exact houtcome
  | tail _ hmove ih => exact hmove.choose_spec.2.outcomeOf ih

/-- What holds of a session and is kept by every move holds after any number of moves. -/
theorem Moves.preserves {busy : List String} {holds : Session → Prop}
    (hstep : ∀ path session after, Move path session after → holds session → holds after)
    (h : Moves busy session after) (hstart : holds session) : holds after := by
  induction h with
  | refl => exact hstart
  | tail _ hmove ih => exact hstep _ _ _ hmove.choose_spec.2 ih

end Session

end ScriptLink
