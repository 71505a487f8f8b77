import ScriptLink.Proofs.Session.Steps

/-!
# Loads and their loaders

A record keeps the loader that it was made with, and what its load is doing fits that loader: only
scripts and components fetch a text and link it, only a style sheet is injected, and only a
registered loader is customized or answers with another module.

* **`TasksFit`** — the invariant, for any loaders and any use of a session.
* **`LoadersAre good`** — the loaders of a session and of all its records are `good`, if the
  built-in ones are and no others are registered. What a theorem asks of loaders is put this way:
  that none answers with another module, or that none writes a slot by itself.
-/

namespace ScriptLink

/-- Whether a loader answers with another module. -/
def Loader.delegates : Loader → Bool
  | .custom loader => loader.target.isSome
  | _ => false

/-- Whether a loader writes the slot of a module before it answers. -/
def Loader.fills : Loader → Bool
  | .custom loader => loader.slotValue.isSome
  | _ => false

/-- Whether a load of this loader can be at this task. -/
def Task.Fits (loader : Loader) : Task → Prop
  | .start | .settled _ => True
  | .fetching | .linking _ | .executing _ _ _ | .styling _ _ _ _ => loader.readsText = true
  | .injecting => loader = .stylesheet
  | .customizing custom => loader = .custom custom
  | .following _ => loader.delegates = true

theorem mem_of_lookup {α : Type} {key : String} {entries : List (String × α)} {value : α}
    (h : entries.lookup key = some value) : (key, value) ∈ entries := by
  obtain ⟨before, later, rfl, -⟩ := List.lookup_eq_some_iff.mp h
  exact List.mem_append_right _ List.mem_cons_self

namespace Session

variable {allowed : Action → Prop} {session after : Session} {path : String} {record : Record}

/-! ## Tasks -/

/-- What every load is doing fits its loader. -/
def TasksFit (session : Session) : Prop :=
  ∀ path record, session.find? path = some record → record.task.Fits record.loader

theorem Calls.fits {call : HostCall} {task : Task} (h : Calls session record call task)
    (hfits : record.task.Fits record.loader) : task.Fits record.loader := by
  cases h with
  | fetch _ hloader => exact hloader
  | stylesheet _ hloader => exact hloader
  | custom _ hloader => exact hloader
  | firstStyle htask _ _ =>
    rw [htask] at hfits
    exact hfits
  | nextStyle htask _ =>
    rw [htask] at hfits
    exact hfits

theorem Moved.fits {next : Record} (h : Moved path session after record next)
    (hfits : record.task.Fits record.loader) : next.task.Fits next.loader := by
  cases h with
  | call hcalls => exact hcalls.fits hfits
  | link htask _ _ _ _ _ =>
    rw [htask] at hfits
    exact hfits
  | execute htask _ _ =>
    rw [htask] at hfits
    exact hfits
  | note htask _ =>
    rw [htask] at hfits
    exact hfits
  | fill _ _ _ _ => exact hfits
  | follow htask _ htarget _ =>
    rw [htask] at hfits
    show record.loader.delegates = true
    rw [hfits, Loader.delegates, htarget]
    rfl
  | abandon _ _ _ _ => trivial
  | resolve _ _ => trivial
  | raise _ => trivial
  | inherit _ _ => trivial

theorem Moved.loader {next : Record} (h : Moved path session after record next) :
    next.loader = record.loader := by
  cases h <;> rfl

theorem TasksFit.step (h : TasksFit session) (hstep : Step allowed session after) :
    TasksFit after := by
  refine @Step.forall_records _ _ _ (fun _ _ record => record.task.Fits record.loader) hstep
    (fun _ _ _ hold => hold) ?_ (fun _ _ _ _ _ hold => hold) ?_ h
  · rintro path record ⟨-, htask, -⟩
    rw [htask]
    trivial
  · exact fun path record next _ _ hmoved hold => hmoved.fits hold

theorem tasksFit_of_start {config : Config} {host : Host} {closed : String → Bool}
    (h : Steps allowed (start config host closed) session) : TasksFit session :=
  h.preserves (fun _ _ hstep hfit => hfit.step hstep)
    fun _ _ hfound => absurd hfound (by simp [start, find?])

/-! ## Loaders -/

/-- All loaders of a session are `good`, those that it may use and those that it uses. -/
structure LoadersAre (good : Loader → Prop) (session : Session) : Prop where
  registered : ∀ entry ∈ session.loaders, good entry.2
  recorded : ∀ path record, session.find? path = some record → good record.loader

theorem act_loaders {action : Action} {entry : String × Loader}
    (h : entry ∈ (session.act action).loaders) :
    entry ∈ session.loaders ∨ action = .register entry.1 entry.2 := by
  cases action with
  | request specifier referrer =>
    have hentry : entry ∈ (session.request specifier
        (referrer.getD session.config.defaultReferrer)).1.loaders := h
    rw [(grown_request session specifier _).loaders] at hentry
    exact Or.inl hentry
  | register suffix loader =>
    rcases act_register_cases session suffix loader with heq | ⟨loaders, _, hnew, -, heq⟩
    · exact Or.inl (heq ▸ h)
    · rw [heq] at h
      unfold Loaders.register? at hnew
      split at hnew
      · exact absurd hnew (by simp)
      · obtain rfl := Option.some.inj hnew
        rcases List.mem_append.mp h with hold | hlast
        · exact Or.inl hold
        · rw [List.mem_singleton.mp hlast]
          exact Or.inr rfl
  | sealSlot target content =>
    rcases act_sealSlot_cases session target content with heq | ⟨_, -, -, heq⟩
    · exact Or.inl (heq ▸ h)
    · rw [heq] at h
      exact Or.inl h
  | _ => exact Or.inl h

/-- A suffix that has a loader keeps it. -/
theorem act_loaders_find? (action : Action) {specifier : String}
    (h : (session.loaders.find? specifier).isSome = true) :
    ((session.act action).loaders.find? specifier).isSome = true := by
  cases action with
  | request target referrer =>
    show ((session.request target _).1.loaders.find? specifier).isSome = true
    rw [(grown_request session target _).loaders]
    exact h
  | register suffix loader =>
    rcases act_register_cases session suffix loader with heq | ⟨loaders, _, hnew, -, heq⟩
    · rw [heq]
      exact h
    · rw [heq]
      unfold Loaders.register? at hnew
      split at hnew
      · exact absurd hnew (by simp)
      · obtain rfl := Option.some.inj hnew
        unfold Loaders.find? at h ⊢
        rw [List.lookup_append, Option.isSome_or, h, Bool.true_or]
  | sealSlot target content =>
    rcases act_sealSlot_cases session target content with heq | ⟨_, -, -, heq⟩ <;> rw [heq] <;>
      exact h
  | _ => exact h

theorem Step.loaders_find? (hstep : Step allowed session after) {specifier : String}
    (h : (session.loaders.find? specifier).isSome = true) :
    (after.loaders.find? specifier).isSome = true := by
  cases hstep with
  | move hmove =>
    rw [hmove.reworked.loaders]
    exact h
  | settle _ _ => exact h
  | act _ => exact act_loaders_find? _ h

theorem LoadersAre.step {good : Loader → Prop} (h : LoadersAre good session)
    (hallowed : ∀ suffix loader, allowed (.register suffix loader) → good loader)
    (hstep : Step allowed session after) : LoadersAre good after := by
  refine ⟨?_, ?_⟩
  · intro entry hmem
    cases hstep with
    | move hmove =>
      rw [hmove.reworked.loaders] at hmem
      exact h.registered entry hmem
    | settle _ _ => exact h.registered entry hmem
    | act haction =>
      rcases act_loaders hmem with hold | rfl
      · exact h.registered entry hold
      · exact hallowed entry.1 entry.2 haction
  · refine @Step.forall_records _ _ _ (fun _ _ record => good record.loader) hstep
      (fun _ _ _ hold => hold) ?_ (fun _ _ _ _ _ hold => hold) ?_ h.recorded
    · rintro path record ⟨-, -, specifier, referrer, -, hloader⟩
      exact h.registered _ (mem_of_lookup hloader)
    · intro path record next _ _ hmoved hold
      rw [hmoved.loader]
      exact hold

theorem loadersAre_of_start {good : Loader → Prop} {config : Config} {host : Host}
    {closed : String → Bool} (hbuiltIn : ∀ entry ∈ Loaders.builtIn, good entry.2)
    (hallowed : ∀ suffix loader, allowed (.register suffix loader) → good loader)
    (h : Steps allowed (start config host closed) session) : LoadersAre good session :=
  h.preserves (fun _ _ hstep hgood => hgood.step hallowed hstep)
    ⟨hbuiltIn, fun _ _ hfound => absurd hfound (by simp [start, find?])⟩

end Session

end ScriptLink
