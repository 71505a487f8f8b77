import ScriptLink.Proofs.Session.Steps
import ScriptLink.Proofs.WaitGraph

/-!
# Who waits for whom

The wait graph is kept beside the records. Here it is shown to say exactly what they say: while
a module is in its linking phase, edges lead from it to the dependencies that it agreed to wait
for, and otherwise none leads away from it.

* **`Session.waitedFor`** — the paths that a module waits for, read off its record.
* **`Answer`** — how a dependency stands right after it was asked for: refused, waited for, or
  put off because it leads back to the importer. `dependAll_answers` judges every dependency by
  the graph as it was before the first one, although edges are added one by one.
* **`WaitsMatch`**, **`LinksMatch`** — the invariants, which every step keeps, with any loaders.
-/

namespace ScriptLink

/-- The path of a dependency that was not put off. -/
def Dependency.waitedFor? (dependency : Dependency) : Option String :=
  match dependency.waiting with
  | .deferred => none
  | _ => some dependency.path

/-- The paths that a module agreed to wait for, whether they have arrived or not. -/
def Task.waitedFor : Task → List String
  | .linking module => module.dependencies.filterMap Dependency.waitedFor?
  | _ => []

theorem mem_waitedFor {dependencies : List Dependency} {target : String} :
    target ∈ dependencies.filterMap Dependency.waitedFor? ↔
      ∃ dependency ∈ dependencies, dependency.waiting ≠ .deferred ∧ dependency.path = target := by
  rw [List.mem_filterMap]
  refine exists_congr fun dependency => and_congr_right fun _ => ?_
  unfold Dependency.waitedFor?
  cases dependency.waiting <;> simp

namespace Session

variable {allowed : Action → Prop} {session before mid after : Session}
  {path importer specifier : String} {record : Record}

/-- The paths that the module at `path` waits for. -/
def waitedFor (session : Session) (path : String) : List String :=
  ((session.find? path).map (·.task.waitedFor)).getD []

theorem waitedFor_of_find? (hfound : session.find? path = some record) :
    session.waitedFor path = record.task.waitedFor := by
  unfold waitedFor
  rw [hfound]
  rfl

/-! ## Asking for dependencies -/

/-- How a dependency stands once `importer` has asked for it by `specifier`: `before` is the
session in which the importer began to ask, `after` one in which it has the answer. -/
inductive Answer (importer : String) (before after : Session) (specifier : String) :
    Dependency → Prop where
  | deferred (hleads : before.waits.leads (Path.resolve importer specifier) importer = true) :
      Answer importer before after specifier ⟨Path.resolve importer specifier, .deferred⟩
  | refused {failure : Failure}
      (hfree : before.waits.leads (Path.resolve importer specifier) importer = false)
      (hunknown : before.loaders.find? specifier = none) :
      Answer importer before after specifier
        ⟨Path.resolve importer specifier, .awaited (.refused failure)⟩
  | recorded (hfree : before.waits.leads (Path.resolve importer specifier) importer = false)
      (hknown : (before.loaders.find? specifier).isSome = true)
      (hrecorded : (after.find? (Path.resolve importer specifier)).isSome = true) :
      Answer importer before after specifier
        ⟨Path.resolve importer specifier, .awaited (.load (Path.resolve importer specifier))⟩

/-- An answer stays true while records are added. -/
theorem Answer.mono {dependency : Dependency} {last : Session}
    (h : Answer importer before after specifier dependency)
    (hkept : ∀ path, (after.find? path).isSome = true → (last.find? path).isSome = true) :
    Answer importer before last specifier dependency := by
  cases h with
  | deferred hleads => exact .deferred hleads
  | refused hfree hunknown => exact .refused hfree hunknown
  | recorded hfree hknown hrecorded => exact .recorded hfree hknown (hkept _ hrecorded)

/-- Only edges of the importer have been added to the graph that it began with. -/
structure OwnEdges (importer : String) (before session : Session) : Prop where
  loaders : session.loaders = before.loaders
  kept : ∀ edge ∈ before.waits.edges, edge ∈ session.waits.edges
  own : ∀ edge ∈ session.waits.edges, edge ∈ before.waits.edges ∨ edge.1 = importer

theorem OwnEdges.refl (importer : String) (session : Session) :
    OwnEdges importer session session :=
  ⟨rfl, fun _ => id, fun _ => Or.inl⟩

/-- What asking for one dependency does: its answer, and its edge if it is waited for. -/
theorem depend_spec (hown : OwnEdges importer before session) (specifier : String) :
    Answer importer before (session.depend importer specifier).1 specifier
        (session.depend importer specifier).2 ∧
      OwnEdges importer before (session.depend importer specifier).1 ∧
      (session.waits.Acyclic → (session.depend importer specifier).1.waits.Acyclic) ∧
      ∀ edge, edge ∈ (session.depend importer specifier).1.waits.edges ↔
        edge ∈ session.waits.edges ∨ (edge.1 = importer ∧
          (session.depend importer specifier).2.waitedFor? = some edge.2) := by
  -- the module's own edges make no difference to what leads to it
  have hleads : session.waits.leads (Path.resolve importer specifier) importer =
      before.waits.leads (Path.resolve importer specifier) importer :=
    WaitGraph.leads_of_own_edges hown.kept hown.own _
  have hgrown := grown_request session specifier importer
  unfold depend
  dsimp only
  rw [request_waits, request_path]
  split
  · next waits hwait =>
    obtain ⟨hfree, hedges⟩ := WaitGraph.wait?_eq_some hwait
    rw [hleads] at hfree
    refine ⟨?_, ⟨hgrown.loaders.trans hown.loaders, ?_, ?_⟩, ?_, ?_⟩
    · rcases request_cases session specifier importer with ⟨hnone, heq⟩ | ⟨hsome, heq, hrecorded⟩
      · rw [heq]
        exact .refused hfree (hown.loaders ▸ hnone)
      · rw [heq]
        exact .recorded hfree (hown.loaders ▸ hsome) hrecorded
    · exact fun edge hmem => (hedges edge).mpr (Or.inr (hown.kept edge hmem))
    · intro edge hmem
      rcases (hedges edge).mp hmem with rfl | hold
      · exact Or.inr rfl
      · exact hown.own edge hold
    · exact fun hacyclic => WaitGraph.wait?_acyclic hacyclic hwait
    · rintro ⟨first, last⟩
      rw [hedges]
      simp only [Dependency.waitedFor?, Prod.mk.injEq, Option.some.injEq]
      constructor
      · rintro (⟨rfl, rfl⟩ | hold)
        · exact Or.inr ⟨rfl, rfl⟩
        · exact Or.inl hold
      · rintro (hold | ⟨rfl, rfl⟩)
        · exact Or.inr hold
        · exact Or.inl ⟨rfl, rfl⟩
  · next hwait =>
    have hback := WaitGraph.wait?_eq_none hwait
    rw [hleads] at hback
    refine ⟨.deferred hback, ⟨hgrown.loaders.trans hown.loaders, ?_, ?_⟩, ?_, ?_⟩
    · rw [request_waits]
      exact hown.kept
    · rw [request_waits]
      exact hown.own
    · rw [request_waits]
      exact id
    · intro edge
      rw [request_waits]
      simp [Dependency.waitedFor?]

/-- **What asking for all dependencies does**, by induction on the specifiers. Every answer is
given by the graph at the beginning. -/
theorem dependAll_spec (specifiers : List String) (hown : OwnEdges importer before session) :
    List.Forall₂ (Answer importer before (session.dependAll importer specifiers).1) specifiers
        (session.dependAll importer specifiers).2 ∧
      (session.waits.Acyclic → (session.dependAll importer specifiers).1.waits.Acyclic) ∧
      ∀ edge, edge ∈ (session.dependAll importer specifiers).1.waits.edges ↔
        edge ∈ session.waits.edges ∨ (edge.1 = importer ∧
          edge.2 ∈ (session.dependAll importer specifiers).2.filterMap
            Dependency.waitedFor?) := by
  induction specifiers generalizing session with
  | nil => exact ⟨.nil, id, fun edge => by simp [dependAll]⟩
  | cons specifier rest ih =>
    obtain ⟨hanswer, hnext, hacyclic, hedges⟩ := depend_spec hown specifier
    obtain ⟨hanswers, hacyclics, halledges⟩ := ih hnext
    have hgrown := grown_dependAll importer rest (session.depend importer specifier).1
    refine ⟨.cons (hanswer.mono fun path hsome => ?_) hanswers,
      fun h => hacyclics (hacyclic h), fun edge => ?_⟩
    · obtain ⟨record, hfound⟩ := Option.isSome_iff_exists.mp hsome
      exact Option.isSome_iff_exists.mpr ⟨record, hgrown.found hfound⟩
    · show edge ∈ ((session.depend importer specifier).1.dependAll importer rest).1.waits.edges ↔
        _ ∨ (_ ∧ edge.2 ∈ ((session.depend importer specifier).2 ::
          ((session.depend importer specifier).1.dependAll importer rest).2).filterMap _)
      rw [halledges, hedges, List.mem_filterMap, List.mem_filterMap]
      simp only [List.mem_cons, exists_eq_or_imp]
      rw [or_assoc, ← and_or_left]

/-- The answers to all requests of a module, by the graph at the time of the first. -/
theorem dependAll_answers (session : Session) (importer : String) (specifiers : List String) :
    List.Forall₂ (Answer importer session (session.dependAll importer specifiers).1) specifiers
      (session.dependAll importer specifiers).2 :=
  (dependAll_spec specifiers (OwnEdges.refl importer session)).1

/-! ## The records during the linking phase -/

/-- How a dependency of the module at `path` stands until the module is run or fails. -/
inductive Standing (path : String) (session : Session) (specifier : String) :
    Dependency → Prop where
  | refused {failure : Failure} :
      Standing path session specifier
        ⟨Path.resolve path specifier, .awaited (.refused failure)⟩
  | recorded (hrecorded : (session.find? (Path.resolve path specifier)).isSome = true) :
      Standing path session specifier
        ⟨Path.resolve path specifier, .awaited (.load (Path.resolve path specifier))⟩
  | arrived {content : Content}
      (houtcome : session.outcomeOf (.load (Path.resolve path specifier)) =
        some (.ok content)) :
      Standing path session specifier ⟨Path.resolve path specifier, .arrived content⟩
  | deferred : Standing path session specifier ⟨Path.resolve path specifier, .deferred⟩

theorem Answer.standing {dependency : Dependency}
    (h : Answer importer before after specifier dependency) :
    Standing importer after specifier dependency := by
  cases h with
  | deferred _ => exact .deferred
  | refused _ _ => exact .refused
  | recorded _ _ hrecorded => exact .recorded hrecorded

theorem Standing.step {dependency : Dependency} (hstep : Step allowed session after)
    (h : Standing path session specifier dependency) :
    Standing path after specifier dependency := by
  cases h with
  | refused => exact .refused
  | recorded hrecorded => exact .recorded (hstep.recorded hrecorded)
  | arrived houtcome => exact .arrived (hstep.outcomeOf houtcome)
  | deferred => exact .deferred

/-- Every dependency of a module in its linking phase belongs to one of its requests. -/
def LinkMatches (session : Session) (path : String) (record : Record) : Prop :=
  ∀ linking, record.task = .linking linking →
    List.Forall₂ (Standing path session) linking.requests.paths linking.dependencies

def LinksMatch (session : Session) : Prop :=
  ∀ path record, session.find? path = some record → LinkMatches session path record

/-- A dependency is noted only when the load that it waits for has ended well. -/
theorem Gathered.standing {specifiers : List String} {dependencies noted : List Dependency}
    (hgathered : Gathered session dependencies noted)
    (h : List.Forall₂ (Standing path session) specifiers dependencies) :
    List.Forall₂ (Standing path session) specifiers noted := by
  refine hgathered.forall₂ ?_ h
  intro specifier dependency request content hstanding hwaiting houtcome
  cases hstanding with
  | refused =>
    rw [← Waiting.awaited.inj hwaiting] at houtcome
    exact absurd houtcome (by simp [Session.outcomeOf])
  | recorded _ =>
    rw [← Waiting.awaited.inj hwaiting] at houtcome
    exact .arrived houtcome
  | arrived _ => exact absurd hwaiting (by simp)
  | deferred => exact absurd hwaiting (by simp)

/-- A call of the host never leads into the linking phase. -/
theorem Calls.not_linking {call : HostCall} {task : Task} (h : Calls session record call task)
    (linking : Linking) : record.task ≠ .linking linking ∧ task ≠ .linking linking := by
  cases h <;> simp [*]

theorem Yields.not_linking {content : Content} (h : Yields session record content)
    (linking : Linking) : record.task ≠ .linking linking := by
  cases h <;> simp [*]

theorem Raises.not_linking {error : LoadError} (h : Raises session record error)
    (linking : Linking) : record.task ≠ .linking linking := by
  cases h with
  | refused hcall _ => exact fun htask => absurd hcall (by simp [htask, Task.call?])
  | duplicate hyields _ => exact hyields.not_linking linking
  | _ => simp [*]

theorem LinksMatch.step (h : LinksMatch session) (hstep : Step allowed session after) :
    LinksMatch after := by
  have hmono : ∀ path record, LinkMatches session path record → LinkMatches after path record :=
    fun path record hold linking htask =>
      (hold linking htask).imp fun _ _ hstanding => hstanding.step hstep
  refine hstep.forall_records (fun path record _ => hmono path record) ?_ ?_ ?_ h
  · intro path record hfresh linking htask
    rw [hfresh.2.1] at htask
    exact absurd htask (by simp)
  · exact fun path record _ _ _ hold => hmono path record hold
  · intro path record next hmove _ hmoved hold linking htask
    cases hmoved with
    | call hcalls => exact absurd htask (hcalls.not_linking linking).2
    | link _ _ _ _ hrequests hafter =>
      obtain rfl := Task.linking.inj htask
      refine (dependAll_answers session path _).imp fun _ _ hanswer => ?_
      refine (hanswer.mono fun other hsome => ?_).standing
      -- setting the task afterwards takes no record away
      obtain ⟨known, hknown⟩ := Option.isSome_iff_exists.mp hsome
      rw [hafter]
      unfold linked
      rw [find?_setTask, hknown]
      split <;> rfl
    | fill hcustom _ _ _ => exact absurd (hcustom.symm.trans htask) (by simp)
    | note hlinking hgathered =>
      obtain rfl := Task.linking.inj htask
      exact (hgathered.standing (hold _ hlinking)).imp fun _ _ hstanding =>
        hstanding.step hstep
    | _ => exact absurd htask (by simp)

/-! ## The graph and the records -/

/-- **The wait graph says what the records say**, and it has no cycle. -/
structure WaitsMatch (session : Session) : Prop where
  acyclic : session.waits.Acyclic
  edges : ∀ importer target, (importer, target) ∈ session.waits.edges ↔
    target ∈ session.waitedFor importer

theorem waitedFor_eq_nil (hnone : (session.find? path) = none) : session.waitedFor path = [] := by
  unfold waitedFor
  rw [hnone]
  rfl

/-- A module that waits for another is in its linking phase, and has not put the other off. -/
theorem linking_of_waitedFor {target : String} (h : target ∈ session.waitedFor path) :
    ∃ record linking, session.find? path = some record ∧ record.task = .linking linking ∧
      ∃ dependency ∈ linking.dependencies,
        dependency.waiting ≠ .deferred ∧ dependency.path = target := by
  cases hfound : session.find? path with
  | none =>
    rw [waitedFor_eq_nil hfound] at h
    exact absurd h List.not_mem_nil
  | some record =>
    rw [waitedFor_of_find? hfound] at h
    cases htask : record.task with
    | linking linking =>
      rw [htask] at h
      exact ⟨record, linking, rfl, htask, mem_waitedFor.mp h⟩
    | _ =>
      rw [htask] at h
      exact absurd h List.not_mem_nil

theorem IsFresh.waitedFor (h : session.IsFresh record) : record.task.waitedFor = [] := by
  rw [h.2.1]
  rfl

/-- A move leaves what the other modules wait for. -/
theorem Reworked.waitedFor {other : String} (h : Reworked path session after)
    (hne : other ≠ path) : after.waitedFor other = session.waitedFor other := by
  cases hfound : session.find? other with
  | some record =>
    rw [waitedFor_of_find? hfound, waitedFor_of_find? (h.others other record hne hfound)]
  | none =>
    rw [waitedFor_eq_nil hfound]
    cases hnew : after.find? other with
    | none => exact waitedFor_eq_nil hnew
    | some record =>
      rcases h.fresh other record hnew with hsome | hfresh
      · rw [hfound] at hsome
        exact absurd hsome (by simp)
      · rw [waitedFor_of_find? hnew, hfresh.waitedFor]

/-- A module that enters and leaves a move waiting for the same, with the graph as it is. -/
theorem WaitsMatch.of_same (h : WaitsMatch session) (hreworked : Reworked path session after)
    (hwaits : after.waits = session.waits)
    (hown : after.waitedFor path = session.waitedFor path) : WaitsMatch after := by
  refine ⟨hwaits ▸ h.acyclic, fun importer target => ?_⟩
  rw [hwaits, h.edges]
  by_cases himporter : importer = path
  · rw [himporter, hown]
  · rw [hreworked.waitedFor himporter]

/-- A module that leaves a move waiting for nothing, with its edges removed. -/
theorem WaitsMatch.of_release (h : WaitsMatch session) (hreworked : Reworked path session after)
    (hwaits : after.waits = session.waits.release path) (hown : after.waitedFor path = []) :
    WaitsMatch after := by
  refine ⟨hwaits ▸ h.acyclic.mono fun edge hmem => (WaitGraph.mem_release.mp hmem).1,
    fun importer target => ?_⟩
  rw [hwaits, WaitGraph.mem_release, h.edges]
  by_cases himporter : importer = path
  · rw [himporter, hown]
    simp
  · rw [hreworked.waitedFor himporter]
    exact and_iff_left himporter

/-! Only a module in its linking phase waits for others. -/

theorem Task.waitedFor_eq_nil {task : Task} (h : ∀ linking, task ≠ .linking linking) :
    task.waitedFor = [] := by
  cases task with
  | linking linking => exact absurd rfl (h linking)
  | _ => rfl

/-- Noting arrivals leaves what the module waits for. -/
theorem Gathered.waitedFor {dependencies noted : List Dependency}
    (h : Gathered session dependencies noted) :
    noted.filterMap Dependency.waitedFor? = dependencies.filterMap Dependency.waitedFor? := by
  induction h with
  | nil => rfl
  | @cons dependency noted rest others hnoted _ ih =>
    have hsame : noted.waitedFor? = dependency.waitedFor? := by
      rcases hnoted with rfl | ⟨request, content, hwaiting, -, rfl⟩
      · rfl
      · simp only [Dependency.waitedFor?, hwaiting]
    rw [List.filterMap_cons, List.filterMap_cons, hsame, ih]

theorem Turn.waitsMatch (h : Turn path session after) (hmatch : WaitsMatch session) :
    WaitsMatch after := by
  have hreworked := h.reworked
  -- a turn that begins and ends outside of the linking phase has nothing to do with the graph
  have hoff : ∀ {old next : Record}, session.find? path = some old →
      (∀ linking, old.task ≠ .linking linking) → after.find? path = some next →
      (∀ linking, next.task ≠ .linking linking) → after.waits = session.waits →
      WaitsMatch after := by
    intro old next hold holdnot hnext hnextnot hwaits
    refine hmatch.of_same hreworked hwaits ?_
    rw [waitedFor_of_find? hold, waitedFor_of_find? hnext, Task.waitedFor_eq_nil holdnot,
      Task.waitedFor_eq_nil hnextnot]
  cases h with
  | call hfound hcalls =>
    exact hoff hfound (fun linking => (hcalls.not_linking linking).1) (find?_called hfound)
      (fun linking => (hcalls.not_linking linking).2) rfl
  | @link record text script hfound htask _ _ _ =>
    obtain ⟨-, hacyclic, hedges⟩ := dependAll_spec
      (Linking.requestsOf (record.loader.take text).markers script.imports).paths
      (OwnEdges.refl path session)
    refine ⟨hacyclic hmatch.acyclic, fun importer target => (hedges (importer, target)).trans ?_⟩
    rw [hmatch.edges]
    by_cases himporter : importer = path
    · rw [himporter, waitedFor_of_find? hfound, waitedFor_of_find? (find?_linked hfound), htask]
      simp only [Task.waitedFor, List.not_mem_nil, false_or, true_and]
    · rw [hreworked.waitedFor himporter]
      simp only [himporter, false_and, or_false]
  | execute hfound _ _ =>
    exact hmatch.of_release hreworked rfl (waitedFor_of_find? (find?_executed hfound))
  | abandon hfound _ _ _ _ =>
    exact hmatch.of_release hreworked rfl (waitedFor_of_find? (find?_abandoned hfound))
  | resolve hfound hyields _ =>
    exact hoff hfound hyields.not_linking (find?_resolved hfound) (by simp) rfl
  | raise hfound hraises =>
    exact hoff hfound hraises.not_linking (find?_raised hfound) (by simp) rfl
  | inherit hfound htask _ =>
    exact hoff hfound (by simp [htask]) (find?_setTask_self hfound) (by simp) rfl
  | fill hfound htask _ _ _ =>
    exact hoff hfound (by simp [htask]) (find?_setSlot_self hfound) (by simp [htask]) rfl
  | follow hfound htask _ _ =>
    exact hoff hfound (by simp [htask]) (find?_followed hfound) (by simp) request_waits

theorem Look.waitsMatch (h : Look path session after) (hmatch : WaitsMatch session) :
    WaitsMatch after := by
  have hreworked := h.reworked
  cases h with
  | note hfound htask hgathered =>
    refine hmatch.of_same hreworked rfl ?_
    rw [waitedFor_of_find? hfound, waitedFor_of_find? (find?_setTask_self hfound), htask]
    exact hgathered.waitedFor

theorem Move.waitsMatch (h : Move path session after) (hmatch : WaitsMatch session) :
    WaitsMatch after :=
  h.elim (fun hturn => hturn.waitsMatch hmatch) fun hlook => hlook.waitsMatch hmatch

/-- No action from outside makes a module wait or stop waiting. -/
theorem act_waitedFor (action : Action) :
    (session.act action).waitedFor path = session.waitedFor path := by
  cases hfound : session.find? path with
  | some record =>
    rcases act_found action hfound with hsame | ⟨_, -, -, hsealed⟩
    · rw [waitedFor_of_find? hfound, waitedFor_of_find? hsame]
    · rw [waitedFor_of_find? hfound, waitedFor_of_find? hsealed]
  | none =>
    rw [waitedFor_eq_nil hfound]
    cases hnew : (session.act action).find? path with
    | none => exact waitedFor_eq_nil hnew
    | some record =>
      rcases act_fresh action hnew with hsome | hfresh
      · rw [hfound] at hsome
        exact absurd hsome (by simp)
      · rw [waitedFor_of_find? hnew, hfresh.waitedFor]

theorem WaitsMatch.step (h : WaitsMatch session) (hstep : Step allowed session after) :
    WaitsMatch after := by
  cases hstep with
  | move hmove => exact hmove.waitsMatch h
  | settle _ _ => exact ⟨h.acyclic, h.edges⟩
  | @act action _ =>
    refine ⟨?_, fun importer target => ?_⟩
    · rw [act_waits]
      exact h.acyclic
    · rw [act_waits, act_waitedFor]
      exact h.edges importer target

/-! ## In every state that a session is ever in -/

variable {config : Config} {host : Host} {closed : String → Bool}

theorem linksMatch_of_start (h : Steps allowed (start config host closed) session) :
    LinksMatch session :=
  h.preserves (fun _ _ hstep hlinks => hlinks.step hstep)
    fun _ _ hfound => absurd hfound (by simp [start, find?])

/-- **The wait graph is acyclic and says what the records say**, whatever is done to a session
and with any loaders. -/
theorem waitsMatch_of_start (h : Steps allowed (start config host closed) session) :
    WaitsMatch session :=
  h.preserves (fun _ _ hstep hmatch => hmatch.step hstep)
    ⟨WaitGraph.acyclic_empty,
      fun _ _ => iff_of_false List.not_mem_nil (by simp [start, waitedFor, find?])⟩

end Session

end ScriptLink
