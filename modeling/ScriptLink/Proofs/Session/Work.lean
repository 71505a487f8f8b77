import Mathlib.Algebra.GroupWithZero.Nat
import ScriptLink.Proofs.Demand
import ScriptLink.Proofs.Session.Loading
import ScriptLink.Proofs.Session.Once

/-!
# The work that is left

Polling is bounded by a count that is computed from `Session.demand`. To see that the count is
never used up, the work that is left to do is measured: every turn makes it less, and it is never
more than nine times the demand.

* **`Session.work`** — the turns that the loads can still take, with an allowance for every text
  that has not been read yet, out of which the requests of that text are paid for.
* **`Turn.work_lt`** — a turn leaves less work, if no loader answers with another module.
* **`work_lt_bound`** — the work is below the bound of polling, after any allowed steps.

Loaders that answer with another module are left out (`Direct`): such a loader makes up requests
that no text asks for.
-/

namespace ScriptLink

/-- Whether an action registers no loader that answers with another module. -/
def Action.isDirect : Action → Bool
  | .register _ loader => !loader.delegates
  | _ => true

/-! ## The work of one load -/

/-- The number of styles that a component still has to append. -/
def stylesOf (component : Option Component) : Nat :=
  (component.map (·.styles.length)).getD 0

/-- The turns that a load can still take without making a request. -/
def Record.work (record : Record) : Nat :=
  match record.task with
  | .start => 4
  | .fetching => 3
  | .linking linking => stylesOf linking.component + 3
  | .executing _ _ component => stylesOf component + 2
  | .styling _ later _ _ => later.length + 1
  | .customizing _ => if record.slot.isSealed then 1 else 2
  | .injecting | .following _ => 1
  | .settled _ => 0

namespace Session

variable {allowed : Action → Prop} {session mid after : Session} {path : String}
  {record : Record}

/-- No loader of the session answers with another module. -/
abbrev Direct : Session → Prop := LoadersAre fun loader => loader.delegates = false

/-! ## The measure -/

/-- The weight of one text of the host. -/
def textWeight (entry : String × String) : Nat :=
  entry.1.utf8ByteSize + entry.2.utf8ByteSize + 1

/-- The weight of the texts that have not been read. -/
def unread (session : Session) : Nat :=
  ((session.host.texts.filter fun entry => decide (session.stageOf entry.1 < 2)).map
    textWeight).sum

/-- The work of the loads that have begun, with an allowance for those that unread texts will
ask for. -/
def work (session : Session) : Nat :=
  (session.records.map Record.work).sum + 9 * session.unread

/-! ## Changing one record -/

theorem sum_map_update {records : List Record} (hnodup : (records.map Record.path).Nodup)
    (hmem : record ∈ records) (change : Record → Record) :
    ((records.map fun other => if other.path == record.path then change other else other).map
        Record.work).sum + record.work =
      (records.map Record.work).sum + (change record).work := by
  induction records with
  | nil => exact absurd hmem List.not_mem_nil
  | cons first rest ih =>
    rw [List.map_cons, List.nodup_cons] at hnodup
    simp only [List.map_cons, List.sum_cons]
    rcases List.mem_cons.mp hmem with rfl | hrest
    · -- no later record has the path of the first
      have hothers : (rest.map fun other =>
          if other.path == record.path then change other else other) = rest := by
        refine (List.map_congr_left fun other hother => ?_).trans (List.map_id rest)
        have hne : other.path ≠ record.path :=
          fun heq => hnodup.1 (heq ▸ List.mem_map_of_mem hother)
        rw [beq_false_of_ne hne]
        rfl
      rw [hothers, beq_self_eq_true, if_pos rfl]
      omega
    · have hne : first.path ≠ record.path :=
        fun heq => hnodup.1 (heq ▸ List.mem_map_of_mem hrest)
      have hih := ih hnodup.2 hrest
      rw [beq_false_of_ne hne]
      simp only [Bool.false_eq_true, ↓reduceIte]
      omega

theorem sum_update (hnodup : (session.records.map Record.path).Nodup)
    (hfound : session.find? path = some record) (change : Record → Record) :
    ((session.update path change).records.map Record.work).sum + record.work =
      (session.records.map Record.work).sum + (change record).work := by
  have hpath := path_of_find? hfound
  subst hpath
  exact sum_map_update hnodup (mem_of_find? hfound) change

theorem sum_setTask (hnodup : (session.records.map Record.path).Nodup)
    (hfound : session.find? path = some record) (task : Task) :
    ((session.setTask path task).records.map Record.work).sum + record.work =
      (session.records.map Record.work).sum + ({ record with task := task } : Record).work :=
  sum_update hnodup hfound fun known => { known with task := task }

/-! ## Unread texts -/

theorem sum_filter_le {entries : List (String × String)} {fewer more : String × String → Bool}
    (hsub : ∀ entry ∈ entries, fewer entry = true → more entry = true) :
    ((entries.filter fewer).map textWeight).sum ≤ ((entries.filter more).map textWeight).sum := by
  induction entries with
  | nil => exact Nat.le_refl _
  | cons entry rest ih =>
    have hrest := ih fun other hmem => hsub other (List.mem_cons_of_mem _ hmem)
    have hentry := hsub entry List.mem_cons_self
    simp only [List.filter_cons]
    by_cases hfewer : fewer entry = true
    · simp only [hfewer, hentry hfewer, ↓reduceIte, List.map_cons, List.sum_cons]
      omega
    · by_cases hmore : more entry = true
      · simp only [hfewer, hmore, ↓reduceIte, List.map_cons, List.sum_cons]
        simp only [Bool.false_eq_true, ↓reduceIte]
        omega
      · simp only [hfewer, hmore, Bool.false_eq_true, ↓reduceIte]
        exact hrest

/-- Leaving out an entry saves its weight. -/
theorem sum_filter_add_le {entries : List (String × String)}
    {fewer more : String × String → Bool} {left : String × String} (hmem : left ∈ entries)
    (hsub : ∀ entry ∈ entries, fewer entry = true → more entry = true)
    (hfewer : fewer left = false) (hmore : more left = true) :
    ((entries.filter fewer).map textWeight).sum + textWeight left ≤
      ((entries.filter more).map textWeight).sum := by
  induction entries with
  | nil => exact absurd hmem List.not_mem_nil
  | cons entry rest ih =>
    have hsubrest : ∀ other ∈ rest, fewer other = true → more other = true :=
      fun other hother => hsub other (List.mem_cons_of_mem _ hother)
    simp only [List.filter_cons]
    rcases List.mem_cons.mp hmem with rfl | hrest
    · have := sum_filter_le hsubrest
      simp only [hfewer, hmore, Bool.false_eq_true, ↓reduceIte, List.map_cons, List.sum_cons]
      omega
    · have hih := ih hrest hsubrest
      have hentry := hsub entry List.mem_cons_self
      split
      · next hin =>
        simp only [hentry hin, ↓reduceIte, List.map_cons, List.sum_cons]
        omega
      · split
        · simp only [List.map_cons, List.sum_cons]
          omega
        · exact hih

theorem unread_le (hhost : after.host = session.host)
    (hstage : ∀ path, session.stageOf path ≤ after.stageOf path) :
    after.unread ≤ session.unread := by
  unfold unread
  rw [hhost]
  refine sum_filter_le fun entry _ hunread => ?_
  have := hstage entry.1
  simp only [decide_eq_true_eq] at hunread ⊢
  omega

theorem mem_texts_of_fetch {host : Host} {text : String} (h : host.fetch path = .ok text) :
    (path, text) ∈ host.texts := by
  unfold Host.fetch at h
  split at h
  · next found hlookup =>
    obtain rfl := Except.ok.inj h
    exact mem_of_lookup hlookup
  · exact absurd h (by simp)

/-- Reading a text saves its weight. -/
theorem unread_add_le {text : String} (hhost : after.host = session.host)
    (hstage : ∀ path, session.stageOf path ≤ after.stageOf path)
    (hfetch : session.host.fetch path = .ok text) (hbefore : session.stageOf path < 2)
    (hafter : 2 ≤ after.stageOf path) :
    after.unread + textWeight (path, text) ≤ session.unread := by
  unfold unread
  rw [hhost]
  refine sum_filter_add_le (mem_texts_of_fetch hfetch) (fun entry _ hunread => ?_) ?_ ?_
  · have := hstage entry.1
    simp only [decide_eq_true_eq] at hunread ⊢
    omega
  · exact decide_eq_false (Nat.not_lt.mpr hafter)
  · exact decide_eq_true hbefore

/-! ## Every turn is work done -/

theorem Record.work_pos (hopen : record.task.outcome? = none) : 0 < record.work := by
  unfold Record.work
  cases htask : record.task with
  | settled outcome =>
    rw [htask] at hopen
    exact absurd hopen (by simp [Task.outcome?])
  | customizing loader =>
    dsimp only
    split <;> omega
  | _ => simp

theorem Calls.work_lt {call : HostCall} {task : Task} (h : Calls session record call task) :
    ({ record with task := task } : Record).work < record.work := by
  unfold Record.work
  cases h with
  | fetch htask _ => simp [htask]
  | stylesheet htask _ => simp [htask]
  | custom htask _ =>
    rw [htask]
    dsimp only
    split <;> omega
  | firstStyle htask _ hstyles => simp [htask, stylesOf, hstyles]
  | nextStyle htask _ => simp [htask]

theorem update_update {first second : Record → Record}
    (hpath : ∀ record, (first record).path = record.path) :
    (session.update path first).update path second =
      session.update path fun record => second (first record) := by
  unfold update
  dsimp only
  congr 1
  rw [List.map_map]
  refine List.map_congr_left fun record _ => ?_
  simp only [Function.comp]
  by_cases heq : (record.path == path) = true
  · simp [heq, hpath]
  · simp [heq]

/-- A turn that changes one record only is work done if the record has less work afterwards. -/
theorem work_lt_of_update {change : Record → Record}
    (hnodup : (session.records.map Record.path).Nodup)
    (hfound : session.find? path = some record)
    (hrecords : after.records = (session.update path change).records)
    (hhost : after.host = session.host)
    (hstage : ∀ path, session.stageOf path ≤ after.stageOf path)
    (hlt : (change record).work < record.work) : after.work < session.work := by
  have hsum := sum_update hnodup hfound change
  have hunread := unread_le hhost hstage
  unfold work
  rw [hrecords]
  omega

/-- What new records weigh, each of them before its first turn. -/
theorem sum_work_start {records : List Record} (h : ∀ record ∈ records, record.task = .start) :
    (records.map Record.work).sum = 4 * records.length := by
  induction records with
  | nil => rfl
  | cons first rest ih =>
    have hfirst : first.work = 4 := by
      unfold Record.work
      rw [h first List.mem_cons_self]
    have hrest := ih fun record hmem => h record (List.mem_cons_of_mem _ hmem)
    rw [List.map_cons, List.sum_cons, List.length_cons, hfirst, hrest]
    omega

theorem Grown.sum_work_le {count : Nat} (h : Grown count session after) :
    (after.records.map Record.work).sum ≤ (session.records.map Record.work).sum + 4 * count := by
  obtain ⟨new, hrecords, hlength, -, hnew⟩ := h.records
  rw [hrecords, List.map_append, List.sum_append,
    sum_work_start fun record hmem => (hnew record hmem).2.2.1]
  omega

/-- **Reading a text pays for everything that it asks for.** -/
theorem linked_work_lt {text : String} {script : Script} {requests : ImportMap}
    (hnodup : (session.records.map Record.path).Nodup)
    (hfound : session.find? path = some record) (htask : record.task = .fetching)
    (hfetch : session.host.fetch path = .ok text)
    (hscript : transform session.config.exportsName (record.loader.take text).script
      = .ok script)
    (hrequests : requests =
      Linking.requestsOf (record.loader.take text).markers script.imports)
    (hafter : after = session.linked path script requests (record.loader.take text).component)
    (hstage : ∀ path, session.stageOf path ≤ after.stageOf path) :
    after.work < session.work := by
  have hgrown := grown_dependAll path requests.paths session
  have hfoundmid := hgrown.found hfound
  have hlinked : after.find? path = some { record with
      task := .linking ⟨script, requests, (session.dependAll path requests.paths).2,
        (record.loader.take text).component⟩ } := by
    rw [hafter]
    exact find?_linked hfound
  -- the text has now been read
  have hunread : after.unread + textWeight (path, text) ≤ session.unread := by
    refine unread_add_le (by rw [hafter]; exact hgrown.host) hstage hfetch ?_ ?_
    · rw [stageOf_of_find? hfound, htask]
      simp [Task.stage]
    · rw [stageOf_of_find? hlinked]
      exact Nat.le_refl _
  -- the new records and the linking phase cost nine for each byte of it at most
  have hcount : requests.paths.length ≤ 2 * text.utf8ByteSize :=
    hrequests ▸ length_requests_le hscript
  have hstyles : stylesOf (record.loader.take text).component ≤ text.utf8ByteSize := by
    unfold stylesOf
    cases hcomponent : (record.loader.take text).component with
    | none => exact Nat.zero_le _
    | some component => exact length_styles_le hcomponent
  have hgrowth := hgrown.sum_work_le
  have hsum := sum_setTask (hgrown.nodup hnodup) hfoundmid
    (.linking ⟨script, requests, (session.dependAll path requests.paths).2,
      (record.loader.take text).component⟩)
  have hbefore : record.work = 3 := by
    unfold Record.work
    rw [htask]
  have hnext : ({ record with
      task := .linking ⟨script, requests, (session.dependAll path requests.paths).2,
        (record.loader.take text).component⟩ } : Record).work =
      stylesOf (record.loader.take text).component + 3 := rfl
  have hafterwork : after.work = (((session.dependAll path requests.paths).1.setTask path
      (.linking ⟨script, requests, (session.dependAll path requests.paths).2,
        (record.loader.take text).component⟩)).records.map Record.work).sum +
      9 * after.unread := by
    rw [hafter]
    rfl
  rw [hafterwork]
  unfold work
  unfold textWeight at hunread
  dsimp only at hunread
  omega

/-- **Every turn is work done**, unless its loader answers with another module. -/
theorem Turn.work_lt (h : Turn path session after)
    (hnodup : (session.records.map Record.path).Nodup) (hfit : TasksFit session)
    (hdirect : Direct session) : after.work < session.work := by
  have hstage : ∀ path, session.stageOf path ≤ after.stageOf path :=
    (Step.move (Or.inl h) : Step (fun _ => True) session after).stage_le
  have hhost := h.reworked.host
  cases h with
  | call hfound hcalls =>
    exact work_lt_of_update hnodup hfound rfl hhost hstage hcalls.work_lt
  | link hfound htask _ hfetch hscript =>
    exact linked_work_lt hnodup hfound htask hfetch hscript rfl rfl hstage
  | execute hfound htask _ =>
    refine work_lt_of_update hnodup hfound rfl hhost hstage ?_
    simp [Record.work, htask]
  | abandon hfound htask _ _ _ =>
    exact work_lt_of_update hnodup hfound rfl hhost hstage
      (Record.work_pos (by rw [htask]; rfl))
  | @resolve record content hfound hyields _ =>
    have hboth : (session.setSlot path (.sealed content)).setTask path (.settled (.ok content)) =
        session.update path fun known =>
          { known with slot := .sealed content, task := .settled (.ok content) } :=
      update_update fun _ => rfl
    exact work_lt_of_update hnodup hfound (congrArg Session.records hboth) hhost hstage
      (Record.work_pos hyields.outcome?_eq_none)
  | raise hfound hraises =>
    exact work_lt_of_update hnodup hfound rfl hhost hstage
      (Record.work_pos hraises.outcome?_eq_none)
  | inherit hfound htask _ =>
    exact work_lt_of_update hnodup hfound rfl hhost hstage
      (Record.work_pos (by rw [htask]; rfl))
  | fill hfound htask _ _ hslot =>
    refine work_lt_of_update hnodup hfound rfl hhost hstage ?_
    simp [Record.work, htask, hslot, Slot.isSealed]
  | follow hfound htask _ htarget =>
    -- the loader would answer with another module
    have hloader := hfit path _ hfound
    rw [htask] at hloader
    have hself := hdirect.recorded path _ hfound
    rw [hloader, Loader.delegates, htarget] at hself
    exact absurd hself (by simp)

theorem Look.work_le (h : Look path session after)
    (hnodup : (session.records.map Record.path).Nodup) : after.work ≤ session.work := by
  have hstage : ∀ path, session.stageOf path ≤ after.stageOf path :=
    (Step.move (Or.inr h) : Step (fun _ => True) session after).stage_le
  have hunread := unread_le h.reworked.host hstage
  cases h with
  | @note record linking noted hfound htask _ =>
    have hsum := sum_setTask hnodup hfound
      (.linking { linking with dependencies := noted })
    have hsame : record.work = stylesOf linking.component + 3 := by
      unfold Record.work
      rw [htask]
    rw [hsame] at hsum
    have hle : ((session.setTask path
        (.linking { linking with dependencies := noted })).records.map Record.work).sum ≤
        (session.records.map Record.work).sum := by
      refine Nat.le_of_add_le_add_right (b := stylesOf linking.component + 3) ?_
      exact Nat.le_of_eq hsum
    unfold work
    omega

theorem Move.work_le (h : Move path session after)
    (hnodup : (session.records.map Record.path).Nodup) (hfit : TasksFit session)
    (hdirect : Direct session) : after.work ≤ session.work := by
  rcases h with hturn | hlook
  · exact Nat.le_of_lt (hturn.work_lt hnodup hfit hdirect)
  · exact hlook.work_le hnodup

/-! ## The demand pays for the work -/

theorem unread_write_le (path text : String) :
    (session.write path text).unread ≤ textWeight (path, text) + session.unread := by
  show (((((path, text) :: session.host.texts.filter fun entry => entry.1 != path).filter
    fun entry => decide (session.stageOf entry.1 < 2)).map textWeight).sum) ≤ _
  have hrest : (((session.host.texts.filter fun entry => entry.1 != path).filter
      fun entry => decide (session.stageOf entry.1 < 2)).map textWeight).sum ≤
      session.unread := by
    rw [List.filter_filter]
    exact sum_filter_le fun entry _ h => (Bool.and_eq_true_iff.mp h).1
  rw [List.filter_cons]
  split
  · rw [List.map_cons, List.sum_cons]
    omega
  · omega

theorem act_work_le (action : Action) (hnodup : (session.records.map Record.path).Nodup) :
    (session.act action).work + 9 * session.demand ≤
      session.work + 9 * (session.act action).demand := by
  have hstage : ∀ path, session.stageOf path ≤ (session.act action).stageOf path :=
    (Step.act trivial : Step (fun _ => True) session (session.act action)).stage_le
  cases action with
  | request specifier referrer =>
    -- one new record at most, of work four, and the demand grows by one at least
    have hgrown := grown_request session specifier
      (referrer.getD session.config.defaultReferrer)
    have hunread := unread_le hgrown.host hstage
    have hsum := hgrown.sum_work_le
    have hdemand : session.demand + 1 ≤ (session.act (.request specifier referrer)).demand := by
      show _ ≤ (session.request specifier _).1.demand + specifier.utf8ByteSize + _ + 1
      rw [hgrown.demand]
      omega
    show ((session.request specifier _).1.records.map Record.work).sum +
      9 * (session.request specifier _).1.unread + _ ≤ _
    unfold work
    omega
  | write path text =>
    -- the new text may still have to be read, even if the old one has been
    have hunread : (session.write path text).unread ≤ _ := unread_write_le path text
    have hdemand : (session.act (.write path text)).demand =
        session.demand + path.utf8ByteSize + text.utf8ByteSize + 1 := rfl
    have hwork : (session.act (.write path text)).work =
        (session.records.map Record.work).sum + 9 * (session.write path text).unread := rfl
    rw [hwork, hdemand]
    unfold work
    unfold textWeight at hunread
    dsimp only at hunread
    omega
  | register suffix loader =>
    rcases act_register_cases session suffix loader with heq | ⟨loaders, demand, -, hdemand, heq⟩
    · exact Nat.le_of_eq (by rw [heq])
    · rw [heq]
      show session.work + _ ≤ session.work + 9 * demand
      omega
  | sealSlot path content =>
    rcases act_sealSlot_cases session path content with heq | ⟨record, hfound, -, heq⟩
    · exact Nat.le_of_eq (by rw [heq])
    · -- a sealed slot can only spare a registered loader the turn in which it would write it
      rw [heq] at hstage ⊢
      have hunread : (session.setSlot path (.sealed content)).unread ≤ session.unread :=
        unread_le rfl hstage
      have hsum := sum_update hnodup hfound fun known => { known with slot := .sealed content }
      have hless : ({ record with slot := .sealed content } : Record).work ≤ record.work := by
        unfold Record.work
        cases record.task with
        | customizing loader =>
          dsimp only
          split <;> split <;> simp_all [Slot.isSealed]
        | _ => exact Nat.le_refl _
      show ((session.update path _).records.map Record.work).sum + _ + _ ≤ _ + 9 * session.demand
      unfold work
      omega
  | openGate gate => exact Nat.le_refl _
  | closeGate gate => exact Nat.le_refl _

theorem Step.work_le (h : Step allowed session after)
    (hnodup : (session.records.map Record.path).Nodup) (hfit : TasksFit session)
    (hdirect : Direct session) :
    after.work + 9 * session.demand ≤ session.work + 9 * after.demand := by
  cases h with
  | move hmove =>
    have hwork := hmove.work_le hnodup hfit hdirect
    rw [hmove.reworked.demand]
    omega
  | settle _ _ => exact Nat.le_refl _
  | act _ => exact act_work_le _ hnodup

/-! ## In every state that a session is ever in -/

variable {config : Config} {host : Host} {closed : String → Bool}

theorem direct_of_start (hallowed : ∀ action, allowed action → action.isDirect = true)
    (h : Steps allowed (start config host closed) session) : Direct session := by
  refine loadersAre_of_start ?_ (fun suffix loader haction => ?_) h
  · simp [Loaders.builtIn, Loader.delegates]
  · simpa [Action.isDirect] using hallowed _ haction

theorem weight_eq (host : Host) : host.weight = (host.texts.map textWeight).sum := by
  unfold Host.weight
  induction host.texts with
  | nil => rfl
  | cons entry rest ih =>
    rw [List.foldr_cons, ih, List.map_cons, List.sum_cons]
    rfl

theorem work_start_le :
    (start config host closed).work ≤ 9 * (start config host closed).demand := by
  have hunread : (start config host closed).unread ≤ host.weight := by
    rw [weight_eq]
    unfold unread
    have hall := @sum_filter_le host.texts
      (fun entry => decide ((start config host closed).stageOf entry.1 < 2)) (fun _ => true)
      fun _ _ _ => rfl
    rw [List.filter_true] at hall
    exact hall
  show 0 + 9 * (start config host closed).unread ≤ 9 * host.weight
  omega

/-- **The demand pays for the work that is left**, in every state of a session whose loaders all
answer themselves. -/
theorem work_le_demand (hallowed : ∀ action, allowed action → action.isDirect = true)
    (h : Steps allowed (start config host closed) session) :
    session.work ≤ 9 * session.demand := by
  induction h with
  | refl => exact work_start_le
  | tail hsteps hlast ih =>
    have hwork := hlast.work_le (nodup_of_start hsteps) (tasksFit_of_start hsteps)
      (direct_of_start hallowed hsteps)
    omega

/-- **Polling is never cut short**: the work is below the bound. -/
theorem work_lt_bound (hallowed : ∀ action, allowed action → action.isDirect = true)
    (h : Steps allowed (start config host closed) session) : session.work < session.bound := by
  have hwork := work_le_demand hallowed h
  have hsquare : 9 ≤ (session.demand + 8) ^ 2 :=
    Nat.le_trans (by decide) (Nat.pow_le_pow_left (Nat.le_add_left 8 session.demand) 2)
  calc session.work ≤ 9 * session.demand := hwork
    _ < 9 * (session.demand + 8) := by omega
    _ ≤ (session.demand + 8) ^ 2 * (session.demand + 8) :=
      Nat.mul_le_mul_right _ hsquare
    _ = session.bound := rfl

end Session

end ScriptLink
