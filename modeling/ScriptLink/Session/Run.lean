import ScriptLink.Session.Poll

/-!
# Using a session

Requests from outside get handles. `Session.run` polls the handles that have no outcome yet,
in order, and does so again until a pass over them neither begins a call nor settles a
handle. The other operations look at a session or change its surroundings: gates, texts,
loaders and slots.
-/

namespace ScriptLink.Session

/-- A request from outside: the number of its handle. -/
def requestHandle (session : Session) (specifier referrer : String) : Session × Nat :=
  let (session, _, request) := session.request specifier referrer
  ({ session with
      handles := session.handles ++ [⟨request, none⟩]
      demand := session.demand + specifier.utf8ByteSize + referrer.utf8ByteSize + 1 },
    session.handles.length)

/-- Requests a module relative to `referrer`, or else to the default referrer. -/
def import? (session : Session) (specifier : String) (referrer : Option String) : Session × Nat :=
  session.requestHandle specifier (referrer.getD session.config.defaultReferrer)

/-- Notes the outcome of a handle. -/
def settle (session : Session) (handle : Nat) (outcome : Outcome) : Session :=
  { session with
    handles := session.handles.modify handle fun entry => { entry with outcome := some outcome } }

/-- Polls one handle unless it has its outcome; the answer holds the outcome if it is new. -/
def pollHandle (session : Session) (handle : Nat) : Session × Option Outcome :=
  match session.handles[handle]? with
  | some ⟨request, none⟩ =>
    match session.poll request with
    | (session, some outcome) => (session.settle handle outcome, some outcome)
    | (session, none) => (session, none)
  | _ => (session, none)

/-- Polls the given handles in order: those that settle, with their outcomes. -/
def pass (session : Session) : List Nat → Session × List (Nat × Outcome)
  | [] => (session, [])
  | handle :: rest =>
    let (session, outcome) := session.pollHandle handle
    let (session, settled) := session.pass rest
    (session, outcome.toList.map (handle, ·) ++ settled)

/-- At most `count` passes over all handles, up to one in which nothing happens. -/
def passes : Nat → Session → Session × List (Nat × Outcome)
  | 0, session => (session, [])
  | count + 1, session =>
    let (after, settled) := session.pass (List.range session.handles.length)
    if settled.isEmpty ∧ after.log.size = session.log.size then (after, [])
    else
      let (last, later) := passes count after
      (last, settled ++ later)

/-- Polls until nothing happens any more: the handles that settled, in order. -/
def run (session : Session) : Session × List (Nat × Outcome) :=
  passes session.bound session

/-- The outcome of a handle, once there is one. -/
def outcome? (session : Session) (handle : Nat) : Option Outcome :=
  session.handles[handle]?.bind (·.outcome)

/-- The handles without an outcome. -/
def pending (session : Session) : List Nat :=
  (List.range session.handles.length).filter fun handle => (session.outcome? handle).isNone

/-- Whether two handles stand for one load. -/
def sameLoad (session : Session) (first second : Nat) : Option Bool :=
  match session.handles[first]?, session.handles[second]? with
  | some a, some b => some (first == second || match a.request, b.request with
    | .load p, .load q => p == q
    | _, _ => false)
  | _, _ => none

/-- Whether two handles ended with one error; none unless both ended with an error. -/
def sameError (session : Session) (first second : Nat) : Option Bool :=
  match session.outcome? first, session.outcome? second with
  | some (.error a), some (.error b) => some (a.id == b.id)
  | _, _ => none

/-! ## Surroundings -/

/-- Opens a gate. -/
def openGate (session : Session) (gate : String) : Session :=
  { session with closed := fun name => if name = gate then false else session.closed name }

/-- Closes a gate. -/
def closeGate (session : Session) (gate : String) : Session :=
  { session with closed := fun name => if name = gate then true else session.closed name }

/-- Gives a module a new text. -/
def write (session : Session) (path text : String) : Session :=
  { session with
    host := session.host.write path text
    demand := session.demand + path.utf8ByteSize + text.utf8ByteSize + 1 }

/-- Registers a loader; none if the suffix is taken. -/
def register? (session : Session) (suffix : String) (loader : Loader) : Option Session :=
  let length := match loader with
    | .custom loader => (loader.target.getD "").utf8ByteSize
    | _ => 0
  (session.loaders.register? suffix loader).map fun loaders =>
    { session with
      loaders := loaders
      demand := session.demand + suffix.utf8ByteSize + length + 1 }

/-- Writes the slot of a recorded module from outside; none if that is refused. -/
def sealSlot? (session : Session) (path : String) (slot : Slot) (content : Content) :
    Option Session :=
  (slot.seal? content).map (session.setSlot path)

/-- Names in ascending order. -/
def sortNames (names : List String) : List String := names.mergeSort fun a b => !decide (b < a)

/-- The paths of all recorded modules, in ascending order. -/
def paths (session : Session) : List String := sortNames (session.records.map (·.path))

/-- The suffixes that have a loader, in ascending order. -/
def suffixes (session : Session) : List String := sortNames (session.loaders.map Prod.fst)

end ScriptLink.Session
