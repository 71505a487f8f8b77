import Mathlib.Data.List.Perm.Subperm
import ScriptLink.Proofs.Session.Stuck
import ScriptLink.Proofs.Session.Work

/-!
# No deadlock

A run stops when nothing moves any more. Here it is shown what that means: every handle that is
still pending has a load from which the wait graph leads to a closed gate. So circular imports
never hang by themselves, from whatever entry and at whatever time the cycle is closed.

* **`OnBehalf`** — polling goes down along the wait graph: each busy module waits for the next
  one. Since the graph has no cycle, polling never comes back to a busy module.
* **`pollFor_stuck`** — a poll that answers nothing leaves its load stuck. The count does not run
  out, because every turn is work done and every busy module has work left.
* **`run_stuck`** — a run leaves every pending handle with a stuck load.
* **`run_pending_leads_to_gate`** — the law, for every sequence of commands.
-/

namespace ScriptLink

namespace Session

variable {session after : Session} {path : String} {record : Record} {busy : List String}
  {poll : String → Session → Session × Option Outcome}

/-- What all states of a session have in common whose loaders answer themselves. -/
structure Orderly (session : Session) : Prop where
  nodup : (session.records.map Record.path).Nodup
  fits : TasksFit session
  direct : Direct session
  waits : WaitsMatch session
  links : LinksMatch session

theorem Orderly.move (h : Orderly session) (hmove : Move path session after) : Orderly after := by
  have hstep : Step (fun action => action.isDirect = true) session after := .move hmove
  have hdirect : Direct after :=
    h.direct.step (fun _ _ haction => by simpa [Action.isDirect] using haction) hstep
  exact ⟨hstep.nodup h.nodup, h.fits.step hstep, hdirect, h.waits.step hstep, h.links.step hstep⟩

theorem Orderly.moves (h : Orderly session) (hmoves : Moves busy session after) :
    Orderly after :=
  hmoves.preserves (fun _ _ _ hmove horderly => horderly.move hmove) h

theorem Moves.work_le (h : Moves busy session after) (horderly : Orderly session) :
    after.work ≤ session.work := by
  induction h with
  | refl => exact Nat.le_refl _
  | tail hmoves hmove ih =>
    have hmid := horderly.moves hmoves
    exact Nat.le_trans (hmove.choose_spec.2.work_le hmid.nodup hmid.fits hmid.direct) ih

theorem turns_work_lt (horderly : Orderly session)
    (h : Relation.TransGen (Turn path) session after) : after.work < session.work := by
  have hkept : Orderly after ∧ after.work < session.work := by
    induction h with
    | single hturn =>
      exact ⟨horderly.move (Or.inl hturn), hturn.work_lt horderly.nodup horderly.fits
        horderly.direct⟩
    | tail _ hturn ih =>
      have hless := hturn.work_lt ih.1.nodup ih.1.fits ih.1.direct
      exact ⟨ih.1.move (Or.inl hturn), Nat.lt_trans hless ih.2⟩
  exact hkept.2

/-! ## On whose behalf a module is polled -/

/-- The module at `path` is polled on behalf of those in `busy`: the first of them waits for it,
and each of the others for the one before. -/
inductive OnBehalf (session : Session) : String → List String → Prop where
  | nobody {path : String} : OnBehalf session path []
  | waiter {path outer : String} {busy : List String}
      (hwaits : path ∈ session.waitedFor outer) (hrest : OnBehalf session outer busy) :
      OnBehalf session path (outer :: busy)

/-- Every busy module leads to the one that is polled, by one edge or more. -/
theorem OnBehalf.leads (h : OnBehalf session path busy) (hmatch : WaitsMatch session)
    {outer : String} (hmem : outer ∈ busy) :
    ∃ next, (outer, next) ∈ session.waits.edges ∧ session.waits.Leads next path := by
  induction h with
  | nobody => exact absurd hmem List.not_mem_nil
  | @waiter path waiter busy hwaits _ ih =>
    have hedge : (waiter, path) ∈ session.waits.edges := (hmatch.edges _ _).mpr hwaits
    rcases List.mem_cons.mp hmem with rfl | hrest
    · exact ⟨path, hedge, .refl path⟩
    · obtain ⟨next, hnext, hleads⟩ := ih hrest
      exact ⟨next, hnext, hleads.trans (.single hedge)⟩

/-- **Polling never comes back to a busy module.** -/
theorem OnBehalf.not_mem (h : OnBehalf session path busy) (hmatch : WaitsMatch session) :
    path ∉ busy := by
  intro hmem
  obtain ⟨next, hedge, hback⟩ := h.leads hmatch hmem
  exact hmatch.acyclic path next hedge hback

theorem OnBehalf.nodup (h : OnBehalf session path busy) (hmatch : WaitsMatch session) :
    busy.Nodup := by
  induction h with
  | nobody => exact List.nodup_nil
  | waiter _ hrest ih => exact List.nodup_cons.mpr ⟨hrest.not_mem hmatch, ih⟩

/-- While others move, the busy modules wait for the same as before. -/
theorem OnBehalf.moves (h : OnBehalf session path busy) (hmoves : Moves busy session after) :
    OnBehalf after path busy := by
  induction h with
  | nobody => exact .nobody
  | @waiter path outer busy hwaits _ ih =>
    refine .waiter ?_ (ih (hmoves.mono fun _ => List.mem_cons_of_mem _))
    obtain ⟨record, _, hfound, -⟩ := linking_of_waitedFor hwaits
    rw [waitedFor_of_find? hfound] at hwaits
    rw [waitedFor_of_find? (hmoves.find?_of_mem List.mem_cons_self hfound)]
    exact hwaits

/-- Each record with work left adds one to the sum at least. -/
theorem length_filter_work_le (records : List Record) :
    (records.filter fun record => decide (0 < record.work)).length ≤
      (records.map Record.work).sum := by
  induction records with
  | nil => exact Nat.le_refl _
  | cons first rest ih =>
    rw [List.filter_cons, List.map_cons, List.sum_cons]
    split
    · next hpos =>
      have : 0 < first.work := by simpa using hpos
      rw [List.length_cons]
      omega
    · omega

/-- Different modules that all have work left are no more than the work. -/
theorem length_le_work {paths : List String} (hnodup : paths.Nodup)
    (hwork : ∀ path ∈ paths, ∃ record, session.find? path = some record ∧ 0 < record.work) :
    paths.length ≤ session.work := by
  have hsub : paths ⊆ (session.records.filter fun record => decide (0 < record.work)).map
      Record.path := by
    intro path hmem
    obtain ⟨record, hfound, hpos⟩ := hwork path hmem
    rw [List.mem_map]
    exact ⟨record, List.mem_filter.mpr ⟨mem_of_find? hfound, by simpa using hpos⟩,
      path_of_find? hfound⟩
  have hlength := (List.subperm_of_subset hnodup hsub).length_le
  rw [List.length_map] at hlength
  exact Nat.le_trans hlength (Nat.le_trans (length_filter_work_le _) (Nat.le_add_right _ _))

theorem OnBehalf.length_le_work (h : OnBehalf session path busy) (hmatch : WaitsMatch session) :
    busy.length ≤ session.work := by
  refine Session.length_le_work (h.nodup hmatch) fun outer hmem => ?_
  obtain ⟨next, hedge, -⟩ := h.leads hmatch hmem
  obtain ⟨record, linking, hfound, htask, -⟩ :=
    linking_of_waitedFor ((hmatch.edges _ _).mp hedge)
  exact ⟨record, hfound, Record.work_pos (by rw [htask]; rfl)⟩

/-! ## A poll that answers nothing -/

/-- What is still awaited after gathering are loads that are stuck, if every poll that answers
nothing leaves its load stuck. -/
theorem gather_stuck (hpoll : Sound busy poll) {start : Session} (dependencies : List Dependency)
    (hlive : ∀ dependency ∈ dependencies, ∀ target, dependency.waiting = .awaited (.load target) →
      ∀ mid, Moves busy start mid → (poll target mid).2 = none →
        Stuck (poll target mid).1 target)
    (hmoves : Moves busy start session) {noted : List Dependency}
    (h : gather poll session dependencies = (after, .ok noted)) :
    ∀ dependency ∈ noted, ∀ request, dependency.waiting = .awaited request →
      ∃ target, request = .load target ∧ Stuck after target := by
  induction dependencies generalizing session noted with
  | nil =>
    obtain ⟨-, rfl⟩ : session = after ∧ [] = noted := by simpa [gather] using h
    exact fun _ hmem => absurd hmem List.not_mem_nil
  | cons first rest ih =>
    have hliverest := fun dependency hmem => hlive dependency (List.mem_cons_of_mem _ hmem)
    -- a dependency that is kept in front of the rest is awaited no more, or it is stuck
    have hkeep : ∀ (mid : Session) (kept : Dependency), Moves busy start mid →
        (∀ request, kept.waiting = .awaited request →
          ∃ target, request = .load target ∧ Stuck mid target) →
        ((gather poll mid rest).1, (gather poll mid rest).2.map (kept :: ·)) =
          (after, Except.ok noted) →
        ∀ dependency ∈ noted, ∀ request, dependency.waiting = .awaited request →
          ∃ target, request = .load target ∧ Stuck after target := by
      intro mid kept hmid hkept heq dependency hmem request hwaiting
      obtain ⟨hafter, hnoted⟩ := Prod.mk.inj heq
      cases hrest : (gather poll mid rest).2 with
      | error failure =>
        rw [hrest] at hnoted
        exact absurd hnoted (by simp [Except.map])
      | ok others =>
        rw [hrest] at hnoted
        obtain rfl := Except.ok.inj hnoted
        rcases List.mem_cons.mp hmem with rfl | hother
        · obtain ⟨target, hload, hstuck⟩ := hkept request hwaiting
          have hlater := (gather_sound hpoll rest mid).1
          rw [hafter] at hlater
          exact ⟨target, hload, hstuck.moves hlater⟩
        · exact ih hliverest hmid (Prod.ext hafter hrest) dependency hother request hwaiting
    unfold gather at h
    split at h
    · next request hwaiting =>
      have hrequest := (pollRequest_sound hpoll session request).1
      split at h
      · exact absurd (Prod.mk.inj h).2 (by simp)
      · next mid content heq =>
        rw [heq] at hrequest
        exact hkeep mid ⟨first.path, .arrived content⟩ (hmoves.trans hrequest)
          (fun _ hnone => absurd hnone (by simp)) h
      · next mid heq =>
        have hmid := hrequest
        rw [heq] at hmid
        refine hkeep mid first (hmoves.trans hmid) (fun other hother => ?_) h
        obtain rfl := Waiting.awaited.inj (hother.symm.trans hwaiting)
        cases other with
        | refused failure => exact absurd (congrArg Prod.snd heq) (by simp [pollRequest])
        | load target =>
          have hpolled : poll target session = (mid, none) := heq
          have hstuck := hlive first List.mem_cons_self target hwaiting session hmoves
            (by rw [hpolled])
          rw [hpolled] at hstuck
          exact ⟨target, rfl, hstuck⟩
    · next hnot =>
      exact hkeep session first hmoves (fun request hwaiting => absurd hwaiting (hnot request)) h

/-- **A load that has no step to take is stuck**, if every poll that answers nothing leaves its
load stuck. -/
theorem advance_stuck (horderly : Orderly session) (hpoll : Sound (record.path :: busy) poll)
    (hfound : session.find? record.path = some record) (hopen : record.task.outcome? = none)
    (hlive : ∀ target mid, Moves (record.path :: busy) session mid →
      target ∈ mid.waitedFor record.path → (mid.find? target).isSome = true →
      (poll target mid).2 = none → Stuck (poll target mid).1 target)
    (h : session.advance poll record = (after, false)) : Stuck after record.path := by
  have hstep := @advance_way session record poll hfound
  rw [h] at hstep
  cases hstep with
  | closed hcall hclosed => exact .atGate hfound hcall hclosed
  | settled htask => exact absurd hopen (by simp [htask, Task.outcome?])
  | unanswered htask _ =>
    -- only a loader that names another module has its load follow one
    have hfits := horderly.fits _ _ hfound
    rw [htask] at hfits
    exact absurd ((horderly.direct.recorded _ _ hfound).symm.trans hfits) (by simp)
  | @waits linking mid noted htask hgather hwaiting =>
    obtain ⟨-, hown, hlook⟩ := note_look hpoll hfound htask hgather
    -- each dependency that is polled is one that the graph says the module waits for
    have hstuck := gather_stuck hpoll linking.dependencies
      (fun dependency hmem target hawaited between hbetween hnone => by
        have hkept := hbetween.find?_of_mem List.mem_cons_self hfound
        have horder := horderly.moves hbetween
        obtain ⟨hedge, hrecorded⟩ :=
          awaited_load horder.waits horder.links hkept htask hmem hawaited
        exact hlive target between hbetween ((horder.waits.edges _ _).mp hedge) hrecorded
          hnone) .refl hgather
    refine .waiting (find?_setTask_self hown) rfl hwaiting ?_ ?_
    · intro dependency hmem failure hawaited
      obtain ⟨target, hload, -⟩ := hstuck dependency hmem _ hawaited
      exact absurd hload (by simp)
    · intro dependency hmem target hawaited
      obtain ⟨other, hload, hother⟩ := hstuck dependency hmem _ hawaited
      obtain rfl := Request.load.inj hload
      exact hother.move (Or.inr hlook)

/-- **A poll that answers nothing leaves its load stuck**, by induction on the count. The count
and the busy modules together exceed the work that is left: a step down adds a busy module, and a
step of the load does work. -/
theorem pollFor_stuck (count : Nat) {busy : List String} {path : String} {session : Session}
    (horderly : Orderly session) (hbehalf : OnBehalf session path busy)
    (hwork : session.work < count + busy.length)
    (hrecorded : (session.find? path).isSome = true)
    (hnone : (pollFor count busy path session).2 = none) :
    Stuck (pollFor count busy path session).1 path := by
  induction count generalizing busy path session with
  | zero =>
    have := hbehalf.length_le_work horderly.waits
    omega
  | succ count ih =>
    obtain ⟨record, hfound⟩ := Option.isSome_iff_exists.mp hrecorded
    have hpath := path_of_find? hfound
    subst hpath
    have hfree := hbehalf.not_mem horderly.waits
    have hpoll := pollFor_sound count (record.path :: busy)
    unfold pollFor at hnone ⊢
    rw [hfound] at hnone ⊢
    dsimp only at hnone ⊢
    split at hnone
    · exact absurd hnone (by simp)
    · next hunsettled =>
      have hopen : record.task.outcome? = none := by
        cases htask : record.task with
        | settled outcome => exact absurd htask (hunsettled outcome)
        | _ => rfl
      rw [if_neg (by simpa using hfree)] at hnone ⊢
      have hstep := advance_sound hpoll hfound
      cases hadvance : session.advance (pollFor count (record.path :: busy)) record with
      | mk after progressed =>
        rw [hadvance] at hstep hnone
        cases progressed with
        | true =>
          -- the load has taken a turn: there is less work, and the poll goes on
          have hmoves := hstep.moves hfree
          have hless : after.work < session.work := by
            obtain ⟨mid, looked, hothers, hlook, hturns⟩ := hstep
            have hmid := horderly.moves hothers
            have hlooked : Orderly looked ∧ looked.work ≤ mid.work := by
              rcases hlook with rfl | hlook
              · exact ⟨hmid, Nat.le_refl _⟩
              · exact ⟨hmid.move (Or.inr hlook), hlook.work_le hmid.nodup⟩
            have hturn := turns_work_lt hlooked.1 hturns
            have hbefore := hothers.work_le horderly
            omega
          have hafter := horderly.moves hmoves
          exact ih hafter (hbehalf.moves hmoves) (by omega) (hmoves.recorded hrecorded) hnone
        | false =>
          refine advance_stuck horderly hpoll hfound hopen ?_ hadvance
          intro target mid hmoves hwaits htarget hpolled
          have hmid := horderly.moves hmoves
          have hbusy : OnBehalf mid record.path busy :=
            hbehalf.moves (hmoves.mono fun _ => List.mem_cons_of_mem _)
          refine ih hmid (.waiter hwaits hbusy) ?_ htarget hpolled
          have := hmoves.work_le horderly
          rw [List.length_cons]
          omega

/-! ## Runs -/

section Runs

variable {config : Config} {host : Host} {closed : String → Bool}

/-- Steps of a session whose loaders answer themselves. -/
abbrev DirectSteps : Session → Session → Prop := Steps fun action => action.isDirect = true

theorem orderly_of_start (h : DirectSteps (start config host closed) session) :
    Orderly session :=
  ⟨nodup_of_start h, tasksFit_of_start h, direct_of_start (fun _ hdirect => hdirect) h,
    waitsMatch_of_start h, linksMatch_of_start h⟩

/-- **A request that a poll leaves without an outcome is for a stuck load.** -/
theorem poll_stuck (h : DirectSteps (start config host closed) session) {request : Request}
    (hrecorded : ∀ path, request = .load path → (session.find? path).isSome = true)
    (hnone : (session.poll request).2 = none) :
    ∃ path, request = .load path ∧ Stuck (session.poll request).1 path := by
  cases request with
  | refused failure => exact absurd hnone (by simp [poll, pollRequest])
  | load path =>
    refine ⟨path, rfl, ?_⟩
    exact pollFor_stuck session.bound (orderly_of_start h) .nobody
      (work_lt_bound (fun _ hdirect => hdirect) h) (hrecorded path rfl) hnone

/-- A handle that is pending after moves and settlements was pending before. -/
theorem pending_of_steps (h : Steps (fun _ => False) session after) {handle : Nat}
    {request : Request} (hpending : after.handles[handle]? = some ⟨request, none⟩) :
    session.handles[handle]? = some ⟨request, none⟩ := by
  induction h with
  | refl => exact hpending
  | tail _ hlast ih =>
    refine ih ?_
    cases hlast with
    | move hmove =>
      rw [hmove.reworked.handles] at hpending
      exact hpending
    | @settle index other outcome hhandle _ =>
      unfold settle at hpending
      dsimp only at hpending
      rw [List.getElem?_modify] at hpending
      split at hpending
      · next hindex =>
        rw [← hindex, hhandle] at hpending
        exact absurd hpending (by simp)
      · simpa using hpending
    | act hnever => exact hnever.elim

theorem pollHandle_stuck (h : DirectSteps (start config host closed) session) {handle : Nat}
    {request : Request}
    (hpending : (session.pollHandle handle).1.handles[handle]? = some ⟨request, none⟩) :
    ∃ path, request = .load path ∧ Stuck (session.pollHandle handle).1 path := by
  have hbefore := pending_of_steps (pollHandle_steps session handle) hpending
  have hrecorded := (handlesMatch_of_start h _ (List.mem_of_getElem? hbefore)).recorded
  have hstuck := @poll_stuck _ _ _ _ h request hrecorded
  have hmoves := (poll_sound session request).1
  unfold pollHandle at hpending ⊢
  rw [hbefore] at hpending ⊢
  dsimp only at hpending ⊢
  split at hpending
  · next mid outcome heq =>
    rw [heq] at hmoves
    unfold settle at hpending
    dsimp only at hpending
    rw [hmoves.handles, List.getElem?_modify, hbefore] at hpending
    exact absurd hpending (by simp)
  · next mid heq =>
    rw [heq] at hstuck
    exact hstuck rfl

/-- **A pass leaves each handle that it polls with an outcome or a stuck load.** -/
theorem pass_stuck (handles : List Nat)
    (h : DirectSteps (start config host closed) session) {handle : Nat} (hmem : handle ∈ handles)
    {request : Request}
    (hpending : (session.pass handles).1.handles[handle]? = some ⟨request, none⟩) :
    ∃ path, request = .load path ∧ Stuck (session.pass handles).1 path := by
  induction handles generalizing session with
  | nil => exact absurd hmem List.not_mem_nil
  | cons first rest ih =>
    have hrest : Steps (fun _ => False) (session.pollHandle first).1
        (session.pass (first :: rest)).1 := pass_steps rest _
    rcases List.mem_cons.mp hmem with rfl | hlater
    · obtain ⟨path, hload, hstuck⟩ := pollHandle_stuck h (pending_of_steps hrest hpending)
      exact ⟨path, hload, hstuck.steps hrest⟩
    · exact ih (h.trans (pollHandle_steps session first)) hlater hpending

/-- Every handle that is pending has a stuck load. -/
def AllStuck (session : Session) : Prop :=
  ∀ (handle : Nat) (request : Request), session.handles[handle]? = some ⟨request, none⟩ →
    ∃ path, request = .load path ∧ Stuck session path

theorem pass_allStuck (h : DirectSteps (start config host closed) session) :
    AllStuck (session.pass (List.range session.handles.length)).1 := by
  intro handle request hpending
  have hbefore := pending_of_steps (pass_steps _ session) hpending
  have hlt := (List.getElem?_eq_some_iff.mp hbefore).1
  exact pass_stuck _ h (List.mem_range.mpr hlt) hpending

theorem passes_allStuck (count : Nat) (h : DirectSteps (start config host closed) session) :
    AllStuck (passes (count + 1) session).1 := by
  induction count generalizing session with
  | zero =>
    unfold passes
    dsimp only
    split
    · exact pass_allStuck h
    · exact pass_allStuck h
  | succ count ih =>
    unfold passes
    dsimp only
    split
    · exact pass_allStuck h
    · exact ih (h.trans (pass_steps _ session))

/-- **A run leaves every pending handle with a stuck load.** -/
theorem run_stuck (h : DirectSteps (start config host closed) session) :
    AllStuck session.run.1 := by
  have hpos : 0 < session.bound := Nat.lt_of_le_of_lt (Nat.zero_le _)
    (work_lt_bound (fun _ hdirect => hdirect) h)
  obtain ⟨count, hcount⟩ := Nat.exists_eq_succ_of_ne_zero (Nat.ne_of_gt hpos)
  unfold run
  rw [hcount]
  exact passes_allStuck count h

/-- **After a run, the wait graph leads from every pending handle to a closed gate.** -/
theorem pending_leads_to_gate (h : DirectSteps (start config host closed) session) {handle : Nat}
    (hmem : handle ∈ session.run.1.pending) : ∃ path last record call,
      session.run.1.handles[handle]? = some ⟨.load path, none⟩ ∧
      session.run.1.waits.Leads path last ∧ session.run.1.find? last = some record ∧
      record.task.call? last = some call ∧ session.run.1.closed call.gate = true := by
  have horderly := orderly_of_start (h.trans (run_steps _))
  obtain ⟨request, hhandle⟩ := mem_pending.mp hmem
  obtain ⟨path, rfl, hstuck⟩ := run_stuck h handle request hhandle
  obtain ⟨last, record, call, hleads⟩ := hstuck.leads horderly.waits horderly.links
  exact ⟨path, last, record, call, hhandle, hleads⟩

/-- With all gates open, a run leaves nothing pending. -/
theorem pending_eq_nil (h : DirectSteps (start config host closed) session)
    (hopen : ∀ gate, session.run.1.closed gate = false) : session.run.1.pending = [] := by
  refine List.eq_nil_iff_forall_not_mem.mpr fun handle hmem => ?_
  obtain ⟨_, _, _, call, -, -, -, -, hclosed⟩ := pending_leads_to_gate h hmem
  rw [hopen call.gate] at hclosed
  exact absurd hclosed (by simp)

/-! ## The law -/

/-- **No deadlock.** Take any session, used by any commands that register no loader which answers
with another module. After a run, every handle that is still pending has a load from which the
wait graph leads, by no, one or more edges, to a load that stands at a closed gate. If no gate is
closed, no handle is pending. -/
theorem run_pending_leads_to_gate (config : Config) (host : Host) (closed : String → Bool)
    (commands : List Command)
    (hdirect : ∀ command ∈ commands, command.Allowed fun action => action.isDirect = true) :
    let after := ((start config host closed).performAll commands).run.1
    (∀ handle ∈ after.pending, ∃ path last record call,
      after.handles[handle]? = some ⟨.load path, none⟩ ∧ after.waits.Leads path last ∧
      after.find? last = some record ∧ record.task.call? last = some call ∧
      after.closed call.gate = true) ∧
    ((∀ gate, after.closed gate = false) → after.pending = []) := by
  intro after
  have hsteps : DirectSteps (start config host closed)
      ((start config host closed).performAll commands) := performAll_steps hdirect _
  exact ⟨fun handle hmem => pending_leads_to_gate hsteps hmem,
    fun hopen => pending_eq_nil hsteps hopen⟩

/-- Two modules that import each other, with all gates open: the last run settles all handles. -/
theorem circular_pair_settles :
    let host : Host :=
      ⟨[("a.js", "import './b.js'"), ("b.js", "import './a.js'")], [], Host.exportOrigin, []⟩
    let commands := [Command.act (.request "./a.js" none), .run, .act (.request "./b.js" none)]
    (∀ command ∈ commands, command.Allowed fun action => action.isDirect = true) ∧
    ((start Config.default host fun _ => false).performAll commands).run.1.pending = [] := by
  intro host commands
  have hdirect : ∀ command ∈ commands, command.Allowed fun action => action.isDirect = true := by
    simp [commands, Command.Allowed, Action.isDirect]
  have hkeeps : ∀ command ∈ commands, command.Allowed fun action => action.keepsOpen = true := by
    simp [commands, Command.Allowed, Action.keepsOpen]
  have hlaw := run_pending_leads_to_gate Config.default host (fun _ => false) commands hdirect
  have hsteps := (performAll_steps hkeeps (start Config.default host fun _ => false)).trans
    (run_steps _)
  exact ⟨hdirect, hlaw.2 fun gate => hsteps.gate_open rfl⟩

end Runs

end Session

end ScriptLink
