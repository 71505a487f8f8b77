import ScriptLink.Proofs.Session.History

/-!
# The calls of one load

The log holds the calls of all loads as they come, and a call need not tell whose it is: the same
style can be appended for two components. So the calls of one load are collected along the way, from
the moves of that load.

* **`Begun`** — the calls that the load of one path has begun on the way from one session to
  another. Every way has its calls (`begun_of_steps`), and they are in the log in this order
  (`Begun.sublist`).
* **`Idles`** — a step on which the load begins nothing, since it is not a step of its own.
* **`Begun.keeps`** — what the moves of a load keep holds of its record and its calls, whatever
  the other loads do.
* **`Host.refusal?`** — the message with which a host lets a call fail. **`Steps.sameAnswers`** — a
  host may get new texts, but it answers all other calls as before.
-/

namespace ScriptLink

/-- The message with which the host lets a call fail, if it has one. -/
def Host.refusal? (host : Host) (call : HostCall) : Option String := host.failures.lookup call.gate

namespace Session

variable {allowed : Action → Prop} {base session after : Session} {path : String}
  {calls : List HostCall} {call : HostCall}

/-! ## Collecting calls -/

/-- On the way from `base` to a session, the load of `path` has begun these calls, in this order. A
move of the load begins what the log is longer by; what others do begins nothing for it. -/
inductive Begun (allowed : Action → Prop) (base : Session) (path : String) :
    List HostCall → Session → Prop where
  | start : Begun allowed base path [] base
  | own {calls : List HostCall} {session after : Session}
      (h : Begun allowed base path calls session) (hmove : Move path session after) :
      Begun allowed base path (calls ++ after.log.toList.drop session.log.size) after
  | other {calls : List HostCall} {session after : Session} {actor : String}
      (h : Begun allowed base path calls session) (hne : actor ≠ path)
      (hmove : Move actor session after) : Begun allowed base path calls after
  | settle {calls : List HostCall} {session : Session} {handle : Nat} {request : Request}
      {outcome : Outcome} (h : Begun allowed base path calls session)
      (hhandle : session.handles[handle]? = some ⟨request, none⟩)
      (houtcome : session.outcomeOf request = some outcome) :
      Begun allowed base path calls (session.settle handle outcome)
  | act {calls : List HostCall} {session : Session} {action : Action}
      (h : Begun allowed base path calls session) (haction : allowed action) :
      Begun allowed base path calls (session.act action)

/-- A step on which the load of `path` begins nothing: another load moves, a handle gets its
outcome, or something is done from outside. -/
structure Idles (allowed : Action → Prop) (path : String) (session after : Session) : Prop where
  step : Step allowed session after
  begun : ∀ {base : Session} {calls : List HostCall}, Begun allowed base path calls session →
    Begun allowed base path calls after

theorem Idles.other {actor : String} (hne : actor ≠ path) (hmove : Move actor session after) :
    Idles allowed path session after :=
  ⟨.move hmove, fun h => .other h hne hmove⟩

theorem Idles.settle {handle : Nat} {request : Request} {outcome : Outcome}
    (hhandle : session.handles[handle]? = some ⟨request, none⟩)
    (houtcome : session.outcomeOf request = some outcome) :
    Idles allowed path session (session.settle handle outcome) :=
  ⟨.settle hhandle houtcome, fun h => .settle h hhandle houtcome⟩

theorem Idles.act {action : Action} (haction : allowed action) :
    Idles allowed path session (session.act action) :=
  ⟨.act haction, fun h => .act h haction⟩

/-- On every way a load has begun some calls. -/
theorem begun_of_steps (h : Steps allowed base session) (path : String) :
    ∃ calls, Begun allowed base path calls session := by
  induction h with
  | refl => exact ⟨[], .start⟩
  | tail _ hlast ih =>
    obtain ⟨calls, hcalls⟩ := ih
    cases hlast with
    | @move actor _ hmove =>
      by_cases hactor : actor = path
      · exact ⟨_, .own hcalls (hactor ▸ hmove)⟩
      · exact ⟨calls, .other hcalls hactor hmove⟩
    | settle hhandle houtcome => exact ⟨calls, .settle hcalls hhandle houtcome⟩
    | act haction => exact ⟨calls, .act hcalls haction⟩

theorem Begun.steps (h : Begun allowed base path calls session) : Steps allowed base session := by
  induction h with
  | start => exact .refl
  | own _ hmove ih => exact ih.tail (.move hmove)
  | other _ _ hmove ih => exact ih.tail (.move hmove)
  | settle _ hhandle houtcome ih => exact ih.tail (.settle hhandle houtcome)
  | act _ haction ih => exact ih.tail (.act haction)

theorem drop_push (log : Array HostCall) (call : HostCall) :
    (log.push call).toList.drop log.size = [call] := by
  rw [Array.toList_push, ← Array.length_toList, List.drop_left]

theorem drop_self (log : Array HostCall) : log.toList.drop log.size = [] :=
  List.drop_eq_nil_of_le (Nat.le_of_eq Array.length_toList)

/-- A step adds calls at the end of the log. -/
theorem Step.log_eq (h : Step allowed session after) :
    after.log.toList = session.log.toList ++ after.log.toList.drop session.log.size := by
  rcases h.log_cases with hsame | ⟨call, hpush⟩
  · rw [hsame, drop_self, List.append_nil]
  · rw [hpush, drop_push, Array.toList_push]

/-- **The calls of a load are in the log**, in their order. -/
theorem Begun.sublist (h : Begun allowed base path calls session) :
    calls.Sublist session.log.toList := by
  induction h with
  | start => exact List.nil_sublist _
  | @own calls session after _ hmove ih =>
    have hlonger := ih.append (List.Sublist.refl (after.log.toList.drop session.log.size))
    rw [← (Step.move hmove : Step allowed session after).log_eq] at hlonger
    exact hlonger
  | other _ _ hmove ih =>
    rw [(Step.move hmove : Step allowed _ _).log_eq]
    exact ih.trans (List.sublist_append_left _ _)
  | settle _ _ _ ih => exact ih
  | act _ _ ih =>
    rw [act_log]
    exact ih

/-- **What the moves of a load keep holds of its record and its calls**, if it holds when the record
is made, and neither steps of others nor what is written into an empty slot from outside undo it. -/
theorem Begun.keeps {holds : Session → List HostCall → Record → Prop}
    (h : Begun allowed base path calls session)
    (hmove : ∀ calls session after record next, Begun allowed base path calls session →
      session.find? path = some record → Move path session after →
      after.find? path = some next → holds session calls record →
      holds after (calls ++ after.log.toList.drop session.log.size) next)
    (hstay : ∀ calls session after record, Idles allowed path session after →
      holds session calls record → holds after calls record)
    (hseal : ∀ calls session record content, allowed (.sealSlot path content) →
      record.slot = .empty → holds session calls record →
      holds session calls { record with slot := .sealed content })
    (hfresh : ∀ session after record, IsFresh session record → holds after [] record)
    (hbase : ∀ record, base.find? path = some record → holds base [] record) :
    (session.find? path = none → calls = []) ∧
      ∀ record, session.find? path = some record → holds session calls record := by
  -- a step of someone else that keeps the record, or makes it
  have hother : ∀ {calls : List HostCall} {session after : Session},
      Idles allowed path session after →
      (∀ record, session.find? path = some record → after.find? path = some record) →
      ((session.find? path = none → calls = []) ∧
        ∀ record, session.find? path = some record → holds session calls record) →
      (after.find? path = none → calls = []) ∧
        ∀ record, after.find? path = some record → holds after calls record := by
    intro calls session after hidles hkept ⟨hnone, hsome⟩
    cases hfound : session.find? path with
    | some record =>
      rw [hkept record hfound]
      exact ⟨fun habsurd => absurd habsurd (by simp), fun other hother =>
        Option.some.inj hother ▸ hstay _ _ _ record hidles (hsome record hfound)⟩
    | none =>
      obtain rfl := hnone hfound
      exact ⟨fun _ => rfl,
        fun next hnext => hfresh session _ next (hidles.step.isFresh hfound hnext)⟩
  induction h with
  | start => exact ⟨fun _ => rfl, hbase⟩
  | own hearlier hown ih =>
    obtain ⟨record, next, hfound, -, hnext, -⟩ := hown.reworked.own
    refine ⟨fun hnone => absurd (hnext.symm.trans hnone) (by simp), fun other hother => ?_⟩
    exact hmove _ _ _ record other hearlier hfound hown hother (ih.2 record hfound)
  | other _ hne hactor ih =>
    exact hother (.other hne hactor)
      (fun record => hactor.reworked.others path record hne.symm) ih
  | settle _ hhandle houtcome ih => exact hother (.settle hhandle houtcome) (fun _ hold => hold) ih
  | @act calls session action _ haction ih =>
    cases hfound : session.find? path with
    | none =>
      refine hother (.act haction) (fun record hold => ?_) ih
      exact absurd (hfound.symm.trans hold) (by simp)
    | some record =>
      rcases act_found action hfound with hsame | ⟨content, rfl, hempty, hsealed⟩
      · refine hother (.act haction) (fun other hold => ?_) ih
        obtain rfl := Option.some.inj (hfound.symm.trans hold)
        exact hsame
      · rw [hsealed]
        refine ⟨fun habsurd => absurd habsurd (by simp), fun other hnext => ?_⟩
        exact Option.some.inj hnext ▸
          hstay _ _ _ _ (.act haction) (hseal _ _ record _ haction hempty (ih.2 record hfound))

/-! ## What the host answers -/

/-- Two hosts run modules and let calls fail alike. -/
structure SameAnswers (host other : Host) : Prop where
  execute : ∀ wrapper, other.execute wrapper = host.execute wrapper
  refusal : ∀ call, other.refusal? call = host.refusal? call

theorem SameAnswers.trans {host other last : Host} (h : SameAnswers host other)
    (hlast : SameAnswers other last) : SameAnswers host last :=
  ⟨fun wrapper => (hlast.execute wrapper).trans (h.execute wrapper),
    fun call => (hlast.refusal call).trans (h.refusal call)⟩

/-- **A host that gets new texts answers all else as before.** -/
theorem Step.sameAnswers (h : Step allowed session after) :
    SameAnswers session.host after.host := by
  cases h with
  | move hmove =>
    rw [hmove.reworked.host]
    exact ⟨fun _ => rfl, fun _ => rfl⟩
  | settle _ _ => exact ⟨fun _ => rfl, fun _ => rfl⟩
  | @act action _ =>
    by_cases hwrite : ∃ name text, action = .write name text
    · obtain ⟨name, text, rfl⟩ := hwrite
      exact ⟨fun _ => rfl, fun _ => rfl⟩
    · rw [act_host fun name text heq => hwrite ⟨name, text, heq⟩]
      exact ⟨fun _ => rfl, fun _ => rfl⟩

theorem Steps.sameAnswers (h : Steps allowed session after) :
    SameAnswers session.host after.host := by
  induction h with
  | refl => exact ⟨fun _ => rfl, fun _ => rfl⟩
  | tail _ hlast ih => exact ih.trans hlast.sameAnswers

theorem pass?_eq_ok_iff : session.pass? call = some (.ok ()) ↔
    session.closed call.gate = false ∧ session.host.refusal? call = none := by
  unfold pass? Host.refusal?
  cases session.closed call.gate with
  | true => simp
  | false => cases session.host.failures.lookup call.gate <;> simp

theorem pass?_eq_error_iff {message : String} : session.pass? call = some (.error message) ↔
    session.closed call.gate = false ∧ session.host.refusal? call = some message := by
  unfold pass? Host.refusal?
  cases session.closed call.gate with
  | true => simp
  | false => cases session.host.failures.lookup call.gate <;> simp

end Session

end ScriptLink
