import ScriptLink.Session.Basic

/-!
# Polling

To poll a load is to carry it on as far as it goes now. It stops at a closed gate, or where
it waits for other loads, which are polled in turn; a load that is being polled already, by
way of one that it waits for, counts as pending. A load that has ended answers its outcome
again.

`advance` takes a load one step on; `poll` repeats it. The argument that bounds the
repetition is computed from the texts that a session has been given (`Session.bound`): every
load on the way down is another module, and there are no more of them than texts, apart from
those that registered loaders make up.
-/

namespace ScriptLink

namespace Linking

/-- What the modules and markers of a script ask for: the markers' dependencies come first,
and a marker with a name binds the whole export object. -/
def requestsOf (markers : List Marker) (imports : ImportMap) : ImportMap :=
  let marked := markers.foldl (fun map marker =>
    ImportMap.add marker.path (marker.name.toList.map .whole) map) []
  marked.addAll imports

/-- Whether the module still waits for a dependency. -/
def isWaiting (linking : Linking) : Bool :=
  linking.dependencies.any fun dependency =>
    match dependency.waiting with
    | .awaited _ => true
    | _ => false

/-- Sets the entry of a path; a new entry comes last. -/
def insertEntry (path : String) (content : Content) :
    List (String × Content) → List (String × Content)
  | [] => [(path, content)]
  | (known, old) :: rest =>
    if known = path then (known, content) :: rest
    else (known, old) :: insertEntry path content rest

/-- The exports that the host gets, one entry per path: first the dependencies that have
arrived, then the deferred ones, of which only those that are sealed have any exports. -/
def table (exports? : String → Option Content) (dependencies : List Dependency) :
    List (String × Content) :=
  let arrived := dependencies.foldl (fun entries dependency =>
    match dependency.waiting with
    | .arrived content => insertEntry dependency.path content entries
    | _ => entries) []
  dependencies.foldl (fun entries dependency =>
    match dependency.waiting with
    | .deferred =>
      if (entries.lookup dependency.path).isSome then entries
      else entries ++ [(dependency.path, (exports? dependency.path).getD Content.emptyObject)]
    | _ => entries) arrived

/-- The names bound from the dependencies, in the order of the requests. -/
def links (linking : Linking) : List Link :=
  (linking.requests.zip linking.dependencies).flatMap fun (request, dependency) =>
    request.2.map (Link.ofBinding dependency.path)

/-- The module as the host runs it. -/
def wrapper (config : Config) (path : String) (linking : Linking) : Wrapper :=
  { Wrapper.empty config path with
    links := linking.links
    body := linking.script.text
    exports := linking.script.exports }

end Linking

namespace Session

/-! ## From a text to the host -/

/-- Rewrites the script of a module and requests what it depends on. -/
def link (session : Session) (path source : String) (markers : List Marker)
    (component : Option Component) : Session :=
  match transform session.config.exportsName source with
  | .error error => session.rejectWith path (.transpile path error)
  | .ok script =>
    let requests := Linking.requestsOf markers script.imports
    let (session, dependencies) := session.dependAll path requests.paths
    session.setTask path (.linking ⟨script, requests, dependencies, component⟩)

/-- Takes the fetched text of a script or component apart. -/
def linkText (session : Session) (path : String) (loader : Loader) (text : String) : Session :=
  match loader with
  | .component =>
    let component := Component.ofMarkup text
    session.link path component.script component.markers (some component)
  | _ => session.link path text (Marker.ofScript text) none

/-- Hands a module to the host, once all dependencies that it waits for have arrived. -/
def execute (session : Session) (path : String) (linking : Linking) : Session :=
  let session := { session with waits := session.waits.release path }
  let wrapper := linking.wrapper session.config path
  let dependencies := Linking.table session.exports? linking.dependencies
  (session.call (.execute wrapper dependencies)).setTask path
    (.executing wrapper dependencies linking.component)

/-- Puts the template of a component on its exports and ends the load. -/
def finish (session : Session) (path : String) (exports : Content) (template : Option String) :
    Session :=
  match template with
  | none => session.resolve path exports
  | some template =>
    match Component.attach? template exports with
    | some exports => session.resolve path exports
    | none => session.rejectWith path (.invalidComponent path)

/-- Appends the next style of a component, or finishes it after the last one. -/
def styleNext (session : Session) (path : String) (styles : List String) (exports : Content)
    (template : Option String) : Session :=
  match styles with
  | [] => session.finish path exports template
  | css :: later =>
    (session.call (.style css)).setTask path (.styling css later exports template)

/-- Goes on after the host has run a module. -/
def afterExecute (session : Session) (path : String) (exports : Content)
    (component : Option Component) : Session :=
  match component with
  | none => session.resolve path exports
  | some component => session.styleNext path component.styles exports component.template

/-- Begins a load. -/
def begin (session : Session) (path : String) (loader : Loader) : Session :=
  match loader with
  | .script | .component => (session.call (.fetch path)).setTask path .fetching
  | .stylesheet => (session.call (.stylesheet path)).setTask path .injecting
  | .echo => session.resolve path (.text path)
  | .custom loader => (session.call (.custom path)).setTask path (.customizing loader)

/-- Lets a registered loader answer. -/
def answer (session : Session) (path : String) (loader : CustomLoader) : Session :=
  match loader.target, loader.failure with
  | some target, _ =>
    let (session, _, request) := session.request target path
    session.setTask path (.following request)
  | none, some .invalidComponent => session.rejectWith path (.invalidComponent path)
  | none, some (.host message) => session.rejectWith path (.host message)
  | none, none => session.resolve path loader.value

/-- Goes on after the call of a registered loader, which may seal the slot first. -/
def customize (session : Session) (path : String) (loader : CustomLoader) : Session :=
  match loader.slotValue with
  | none => session.answer path loader
  | some content =>
    match (session.find? path).bind (·.slot.seal? content) with
    | some slot => (session.setSlot path slot).answer path loader
    | none => session.rejectWith path (.duplicateExport path)

/-! ## One step -/

/-- How a session goes on with a load: `none` if the load is stuck for now. -/
abbrev Progress := Session × Bool

/-- A call at its gate: goes on with `next` if the call succeeds. -/
def atGate (session : Session) (path : String) (call : HostCall) (next : Session → Session) :
    Progress :=
  match session.pass? call with
  | none => (session, false)
  | some (.error message) => (session.rejectWith path (.host message), true)
  | some (.ok ()) => (next session, true)

/-- The outcome of a request, if there is one by now; `poll` polls a load. -/
def pollRequest (poll : String → Session → Session × Option Outcome) (session : Session) :
    Request → Session × Option Outcome
  | .refused failure => (session, some (.error failure))
  | .load path => poll path session

/-- Polls the dependencies that are still awaited, in order, up to the first that has
failed. -/
def gather (poll : String → Session → Session × Option Outcome) (session : Session) :
    List Dependency → Session × Except Failure (List Dependency)
  | [] => (session, .ok [])
  | dependency :: rest =>
    match dependency.waiting with
    | .awaited request =>
      match pollRequest poll session request with
      | (session, some (.error failure)) => (session, .error failure)
      | (session, some (.ok content)) =>
        let (session, others) := gather poll session rest
        (session, others.map (⟨dependency.path, .arrived content⟩ :: ·))
      | (session, none) =>
        let (session, others) := gather poll session rest
        (session, others.map (dependency :: ·))
    | _ =>
      let (session, others) := gather poll session rest
      (session, others.map (dependency :: ·))

/-- Takes a load one step on; the answer says whether there was a step to take. -/
def advance (poll : String → Session → Session × Option Outcome) (session : Session)
    (record : Record) : Progress :=
  let path := record.path
  match record.task with
  | .start => (session.begin path record.loader, true)
  | .fetching => session.atGate path (.fetch path) fun session =>
      match session.host.fetch path with
      | .ok text => session.linkText path record.loader text
      | .error message => session.rejectWith path (.host message)
  | .linking linking =>
    match gather poll session linking.dependencies with
    | (session, .error failure) =>
      (({ session with waits := session.waits.release path }).reject path failure, true)
    | (session, .ok dependencies) =>
      let linking := { linking with dependencies := dependencies }
      if linking.isWaiting then (session.setTask path (.linking linking), false)
      else (session.execute path linking, true)
  | .executing wrapper dependencies component =>
    session.atGate path (.execute wrapper dependencies) fun session =>
      session.afterExecute path (session.host.execute wrapper) component
  | .styling css later exports template => session.atGate path (.style css) fun session =>
      session.styleNext path later exports template
  | .injecting => session.atGate path (.stylesheet path) fun session =>
      session.resolve path (session.host.stylesheet path)
  | .customizing loader => session.atGate path (.custom path) fun session =>
      session.customize path loader
  | .following request =>
    match pollRequest poll session request with
    | (session, none) => (session, false)
    | (session, some (.ok content)) => (session.resolve path content, true)
    | (session, some (.error failure)) => (session.reject path failure, true)
  | .settled _ => (session, false)

/-! ## Polling -/

/-- Polls the load of the module at a path, for at most `count` steps on the way down. The
modules in `busy` are being polled already. -/
def pollFor : Nat → List String → String → Session → Session × Option Outcome
  | 0, _, _, session => (session, none)
  | count + 1, busy, path, session =>
    match session.find? path with
    | none => (session, none)
    | some record =>
      match record.task with
      | .settled outcome => (session, some outcome)
      | _ =>
        if busy.contains path then (session, none)
        else
          match session.advance (pollFor count (path :: busy)) record with
          | (session, true) => pollFor count busy path session
          | (session, false) => (session, none)

/-- More steps than any load can take: the modules with a text are no more than the length of
all texts, neither are the steps within one of them, and the paths that registered loaders
make up grow or shrink by their own lengths. -/
def bound (session : Session) : Nat := Nat.pow (session.demand + 8) 3

/-- Polls the load behind a request from outside. -/
def poll (session : Session) (request : Request) : Session × Option Outcome :=
  pollRequest (pollFor session.bound []) session request

end Session

end ScriptLink
